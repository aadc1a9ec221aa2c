import TBoxMpu.Fota.LoadPkg
import TBoxMpu.Fota.XmlText
import TBoxMpu.Lib.Tables

/-!
# What is loaded of a package description

The nodes that a description lists for buses, ECUs, versions and images, and the places that the
tables of `fota_load.c` have for them. `xml_get_sub_node_lst` stops at a full table and tells no
more than the table holds, so that the checks for too many nodes never fail: what is listed is
loaded exactly if it fits (`held_iff`).
-/

namespace Fota

open Checked Fallible Scanf Tables

/-! ### What a description lists -/

def XmlNode.named (node : XmlNode) (name : CStr) : List XmlNode :=
  node.child.filter (·.name = name)

/-- The images of a version. -/
def images (node : XmlNode) : List XmlNode :=
  (node.named (chars "file")).flatMap (·.named (chars "patch"))

def rootNode (files : CStr → Option (List UInt8)) (path : CStr) : Option XmlNode :=
  (xmlLoadRoot (files path)).toOption.join

/-- The node of an ECU in its own file. -/
def infoNode (files : CStr → Option (List UInt8)) (root : CStr) (node : XmlNode) :
    Option XmlNode :=
  (xmlGetSubValue node (chars "name")).bind fun name =>
    (xmlGetSubValue node (chars "infoname")).bind fun info =>
      xmlGetNode (rootNode files (root ++ info)) name

/-- The ECUs of a package, whatever strategy they are in. -/
def listedEcus (node : XmlNode) : List XmlNode :=
  (node.named (chars "strategy")).flatMap (·.named (chars "ecu"))

def VerHeld (node : XmlNode) (ver : FotaVer) : Prop :=
  List.Forall₂ (fun patch fpath => patch.value = some fpath) (images node) [ver.fpath]

def BusHeld (node : XmlNode) (bus : BusInf) : Prop :=
  List.Forall₂ (fun node ecu => xmlGetSubValue node (chars "name") = some ecu.name)
    (node.named (chars "ecu")) bus.ecu

/-- An ECU with its source versions, target versions, drivers and related versions. -/
def EcuHeld (files : CStr → Option (List UInt8)) (root : CStr) (node : XmlNode) (ecu : FotaEcu) :
    Prop :=
  xmlGetSubValue node (chars "name") = some ecu.name ∧
    List.Forall₂ VerHeld (node.named (chars "sourcever")) [ecu.src] ∧
    ∃ info, infoNode files root node = some info ∧
      List.Forall₂ VerHeld (info.named (chars "flashver")) ecu.tar.toList ∧
      List.Forall₂ VerHeld (info.named (chars "flashdrv")) ecu.drv.toList ∧
      List.Forall₂ VerHeld (info.named (chars "relver")) ecu.rel

/-- The package holds all that the description lists. -/
def Held (files : CStr → Option (List UInt8)) (pkg : Package) : Prop :=
  ∃ info fota, xmlGetNode (rootNode files xmlBusFile) (chars "businfo") = some info ∧
    xmlGetNode (rootNode files (pkg.root ++ xmlFotaFile)) (chars "fota") = some fota ∧
    List.Forall₂ BusHeld (info.named (chars "bus")) pkg.bus ∧
    List.Forall₂ (EcuHeld files pkg.root) (listedEcus fota) pkg.ecu

/-! ### What the tables have room for -/

def VerFits (node : XmlNode) : Prop := (images node).length ≤ 1

def BusFits (node : XmlNode) : Prop := (node.named (chars "ecu")).length ≤ fotaMaxEcu

def EcuFits (files : CStr → Option (List UInt8)) (root : CStr) (node : XmlNode) : Prop :=
  Fits 1 VerFits (node.named (chars "sourcever")) ∧
    ∀ info ∈ infoNode files root node, Fits 1 VerFits (info.named (chars "flashver")) ∧
      Fits 1 VerFits (info.named (chars "flashdrv")) ∧
      Fits fotaMaxRelVer VerFits (info.named (chars "relver"))

/-- No table is too small: five buses of sixteen ECUs; sixteen ECUs in the first strategy and
none in another, each with one source version, target version and driver at most and four
related versions; one image for a version. -/
def PackageFits (files : CStr → Option (List UInt8)) (root : CStr) : Prop :=
  (∀ info ∈ xmlGetNode (rootNode files xmlBusFile) (chars "businfo"),
    Fits fotaMaxBus BusFits (info.named (chars "bus"))) ∧
  ∀ fota ∈ xmlGetNode (rootNode files (root ++ xmlFotaFile)) (chars "fota"),
    (∀ other ∈ (fota.named (chars "strategy")).tail, other.named (chars "ecu") = []) ∧
      Fits fotaMaxEcu (EcuFits files root) (listedEcus fota)

/-! ### Names have no slash -/

mutual

def XmlNode.Plain : XmlNode → Prop
  | .node name _ child => 0x2f ∉ name ∧ AllPlain child

def AllPlain : List XmlNode → Prop
  | [] => True
  | node :: rest => node.Plain ∧ AllPlain rest

end

theorem allPlain_iff (nodes : List XmlNode) : AllPlain nodes ↔ ∀ node ∈ nodes, node.Plain := by
  induction nodes with
  | nil => exact iff_of_true trivial nofun
  | cons node rest ih => rw [AllPlain, List.forall_mem_cons, ih]

theorem XmlNode.Plain.name {node : XmlNode} (plain : node.Plain) : 0x2f ∉ node.name := by
  obtain ⟨name, value, child⟩ := node
  exact plain.1

theorem XmlNode.Plain.child {node sub : XmlNode} (plain : node.Plain) (mem : sub ∈ node.child) :
    sub.Plain := by
  obtain ⟨name, value, child⟩ := node
  exact (allPlain_iff child).mp plain.2 sub mem

theorem XmlNode.Plain.named {node sub : XmlNode} (plain : node.Plain) {name : CStr}
    (mem : sub ∈ node.named name) : sub.Plain :=
  plain.child (List.mem_of_mem_filter mem)

def XmlOpen.Plain (curr : XmlOpen) : Prop := 0x2f ∉ curr.name ∧ AllPlain curr.child

def Xml.Plain (xml : Xml) : Prop := AllPlain xml.roots ∧ ∀ curr ∈ xml.path, curr.Plain

theorem xmlGetPice_plain {size : Int} {str name rest : CStr}
    (h : xmlGetPice size str = .ok (.tags name, rest)) : 0x2f ∉ name := by
  have tag {pice : CStr → XmlPice} {src : CStr}
      (h : xmlGetTag pice size src = .ok (.tags name, rest))
      (same : ∀ text, pice text = .tags name → text = name) : 0x2f ∉ name := by
    unfold xmlGetTag at h
    split at h
    · cases h
    next text last found =>
      split at h
      · cases h
      · obtain ⟨eq, rfl⟩ := Prod.mk.inj (Except.ok.inj h)
        obtain rfl := same _ eq
        exact fun mem => ((tagName_some found).2 _ mem).2.1 rfl
  unfold xmlGetPice at h
  split at h
  · cases h
  · split at h
    · split at h
      · cases h
      · split at h
        · exact tag h nofun
        · exact tag h fun text same => XmlPice.tags.inj same
    · split at h
      · cases h
      · dsimp only at h
        split at h <;> cases h

theorem xmlUse_plain {pice : XmlPice} {xml xml' : Xml} (plain : xml.Plain)
    (name : ∀ text, pice = .tags text → 0x2f ∉ text) (h : xmlUse pice xml = .ok xml') :
    xml'.Plain := by
  obtain ⟨closed, opened⟩ := plain
  cases xmlUse_cases h with
  | nothing => exact ⟨closed, opened⟩
  | start text =>
    have fresh : XmlOpen.Plain ⟨text, none, []⟩ := ⟨name text rfl, trivial⟩
    exact ⟨closed, List.forall_mem_cons.mpr ⟨fresh, opened⟩⟩
  | stop here =>
    next curr path =>
    rw [here] at opened
    obtain ⟨last, above⟩ := List.forall_mem_cons.mp opened
    have done : ∀ nodes, AllPlain nodes → AllPlain (nodes ++ [curr.close]) := by
      intro nodes all
      simp only [allPlain_iff, List.forall_mem_append, List.forall_mem_singleton] at all ⊢
      exact ⟨all, last⟩
    cases path with
    | nil => exact ⟨done xml.roots closed, nofun⟩
    | cons parent path =>
      obtain ⟨first, above⟩ := List.forall_mem_cons.mp above
      exact ⟨closed, List.forall_mem_cons.mpr ⟨⟨first.1, done _ first.2⟩, above⟩⟩
  | value here text =>
    rw [here] at opened
    obtain ⟨last, above⟩ := List.forall_mem_cons.mp opened
    exact ⟨closed, List.forall_mem_cons.mpr ⟨last, above⟩⟩

theorem xmlParse_plain {fuel : Nat} {str : CStr} {xml xml' : Xml} (plain : xml.Plain)
    (h : xmlParse fuel str xml = .ok xml') : xml'.Plain := by
  induction fuel generalizing str xml with
  | zero =>
    obtain rfl := Except.ok.inj h
    exact plain
  | succ fuel ih =>
    unfold xmlParse at h
    obtain ⟨⟨pice, rest⟩, found, h⟩ := bind_ok_iff.mp h
    obtain ⟨next, used, h⟩ := bind_ok_iff.mp h
    have plain := xmlUse_plain plain (fun text same => xmlGetPice_plain (same ▸ found)) used
    split at h
    · obtain rfl := Except.ok.inj h
      exact plain
    · exact ih plain h

theorem rootNode_plain {files : CStr → Option (List UInt8)} {path : CStr} {node : XmlNode}
    (h : rootNode files path = some node) : node.Plain := by
  unfold rootNode xmlLoadRoot at h
  cases loaded : xmlLoad (files path) with
  | error err =>
    rw [loaded] at h
    cases h
  | ok xml =>
    rw [loaded] at h
    change xml.roots.getLast? = some node at h
    have plain : xml.Plain := by
      match file : files path with
      | none =>
        rw [file] at loaded
        cases loaded
      | some text =>
        rw [file] at loaded
        unfold xmlLoad at loaded
        obtain ⟨last, run, loaded⟩ := bind_ok_iff.mp loaded
        split at loaded
        · cases loaded
        · obtain rfl := Except.ok.inj loaded
          refine foldlM_invariant (fun _ xml => xml.Plain) ⟨trivial, nofun⟩ ?_ run
          intro _ xml lbuf xml' plain step
          unfold xmlParseLine at step
          dsimp only at step
          split at step
          · obtain rfl := Except.ok.inj step
            exact plain
          · exact xmlParse_plain plain step
    exact (allPlain_iff _).mp plain.1 node (List.mem_of_getLast? h)

/-! ### Look-ups in a plain tree -/

/-- A name that the path begins with, and behind which the path ends or goes on with a slash. -/
theorem onPath_iff {pos : CStr} {sub : XmlNode} :
    onPath pos sub ↔ ∃ rest, sub.name ++ rest = pos ∧ (rest = [] ∨ rest.headD 0 = 0x2f) := by
  unfold onPath
  simp only [Bool.and_eq_true, List.isPrefixOf_iff_prefix, Bool.or_eq_true, List.isEmpty_iff,
    beq_iff_eq]
  constructor
  · rintro ⟨⟨rest, whole⟩, ends⟩
    rw [← whole, List.drop_left] at ends
    exact ⟨rest, whole, ends⟩
  · rintro ⟨rest, whole, ends⟩
    refine ⟨⟨rest, whole⟩, ?_⟩
    rwa [← whole, List.drop_left]

theorem onPath_last {name : CStr} (plain : 0x2f ∉ name) (sub : XmlNode) :
    onPath name sub = decide (sub.name = name) := by
  rw [Bool.eq_iff_iff, decide_eq_true_iff, onPath_iff]
  constructor
  · rintro ⟨rest, rfl, none | slash⟩
    · rw [none, List.append_nil]
    · cases rest with
      | nil => rw [List.append_nil]
      | cons c rest =>
        obtain rfl : c = 0x2f := slash
        exact absurd (by simp) plain
  · rintro rfl
    exact ⟨[], List.append_nil _, .inl rfl⟩

theorem onPath_first {name rest : CStr} {sub : XmlNode} (plain : 0x2f ∉ name)
    (plain' : 0x2f ∉ sub.name) :
    onPath (name ++ 0x2f :: rest) sub = decide (sub.name = name) := by
  rw [Bool.eq_iff_iff, decide_eq_true_iff, onPath_iff]
  constructor
  · rintro ⟨behind, whole, ends⟩
    cases behind with
    | nil =>
      rw [List.append_nil] at whole
      exact absurd (by rw [whole]; simp) plain'
    | cons c behind =>
      obtain rfl : c = 0x2f := ends.resolve_left nofun
      exact (split_inj plain' plain whole).1
  · rintro rfl
    exact ⟨0x2f :: rest, rfl, .inr rfl⟩

theorem xmlSubLoop_succ (fuel : Nat) (node : XmlNode) {pos : CStr} (more : pos ≠ []) :
    xmlSubLoop (fuel + 1) node pos =
      match node.child.find? (onPath pos) with
      | some sub =>
        if pos.drop sub.name.length = [] then some sub
        else xmlSubLoop fuel sub (pos.drop sub.name.length).tail
      | none => if pos.headD 0 = 0x2f then xmlSubLoop fuel node pos.tail else none := by
  cases pos with
  | nil => exact absurd rfl more
  | cons c rest => rfl

theorem head_slash {name : CStr} (more : name ≠ []) (plain : 0x2f ∉ name) (rest : CStr) :
    (name ++ rest).headD 0 ≠ 0x2f := by
  cases name with
  | nil => exact absurd rfl more
  | cons c name => exact fun same => plain (same ▸ List.mem_cons_self)

theorem skip_slash {name : CStr} (more : name ≠ []) (plain : 0x2f ∉ name) (rest : CStr) :
    (name ++ rest).dropWhile (· = 0x2f) = name ++ rest := by
  cases name with
  | nil => exact absurd rfl more
  | cons c name =>
    have first : c ≠ 0x2f := fun same => plain (same ▸ List.mem_cons_self)
    exact List.dropWhile_cons_of_neg (by simpa using first)

theorem xmlSubLoop_last {name : CStr} (more : name ≠ []) (plain : 0x2f ∉ name) (fuel : Nat)
    (node : XmlNode) : xmlSubLoop (fuel + 1) node name = (node.named name).head? := by
  have same : onPath name = fun sub => decide (sub.name = name) := funext (onPath_last plain)
  have first := head_slash more plain []
  rw [List.append_nil] at first
  rw [xmlSubLoop_succ fuel node more, same, XmlNode.named, List.head?_filter]
  cases found : node.child.find? fun sub => decide (sub.name = name) with
  | none => exact if_neg first
  | some sub =>
    have here : sub.name = name := by simpa using List.find?_some found
    dsimp only
    rw [here, List.drop_length, if_pos rfl]

theorem xmlGetSubNode_one {name : CStr} (more : name ≠ []) (plain : 0x2f ∉ name)
    (node : XmlNode) : xmlGetSubNode node name = (node.named name).head? := by
  have pos := skip_slash more plain []
  rw [List.append_nil] at pos
  rw [xmlGetSubNode, pos]
  exact xmlSubLoop_last more plain _ node

theorem xmlGetSubNode_two {name last : CStr} (more : name ≠ []) (more' : last ≠ [])
    (plain : 0x2f ∉ name) (plain' : 0x2f ∉ last) {node : XmlNode} (tree : node.Plain) :
    xmlGetSubNode node (name ++ 0x2f :: last) =
      (node.named name).head?.bind fun sub => (sub.named last).head? := by
  have same : node.child.find? (onPath (name ++ 0x2f :: last)) =
      node.child.find? fun sub => decide (sub.name = name) := by
    rw [← List.head?_filter, ← List.head?_filter]
    congr 1
    exact List.filter_congr fun sub mem => onPath_first plain (tree.child mem).name
  rw [xmlGetSubNode, skip_slash more plain, xmlSubLoop_succ _ node (by simp), same, XmlNode.named,
    List.head?_filter]
  cases found : node.child.find? fun sub => decide (sub.name = name) with
  | none => exact if_neg (head_slash more plain _)
  | some sub =>
    have here : sub.name = name := by simpa using List.find?_some found
    dsimp only
    rw [here, List.drop_left, if_neg nofun, List.tail_cons, List.length_append]
    exact xmlSubLoop_last more' plain' _ sub

/-- The path of an image in its version. -/
theorem xmlGetSubNode_image {node : XmlNode} (plain : node.Plain) :
    xmlGetSubNode node (chars "file/patch") =
      (node.named (chars "file")).head?.bind fun file => (file.named (chars "patch")).head? := by
  have path : chars "file/patch" = chars "file" ++ 0x2f :: chars "patch" := by decide
  rw [path]
  exact xmlGetSubNode_two (by decide) (by decide) (by decide) (by decide) plain

/-! ### Versions and buses -/

theorem found_ok {α : Type} {x : Option α} {a : α} (h : found x = .ok a) : x = some a := by
  cases x with
  | none => cases h
  | some b => exact congrArg some (Except.ok.inj h)

/-- A version is loaded with the first of its images. -/
theorem fotaLoadVer_held {node : XmlNode} {ver : FotaVer} (plain : node.Plain)
    (h : fotaLoadVer node = .ok ver) : VerHeld node ver ↔ VerFits node := by
  have first : List.Forall₂ (fun patch fpath => patch.value = some fpath)
      ((images node).take 1) [ver.fpath] := by
    unfold fotaLoadVer at h
    obtain ⟨_, -, h⟩ := bind_ok_iff.mp h
    obtain ⟨_, -, h⟩ := bind_ok_iff.mp h
    obtain ⟨fpath, path, h⟩ := bind_ok_iff.mp h
    obtain ⟨_, -, h⟩ := bind_ok_iff.mp h
    obtain ⟨_, -, h⟩ := bind_ok_iff.mp h
    obtain ⟨_, -, h⟩ := bind_ok_iff.mp h
    obtain ⟨⟨_, _⟩, -, h⟩ := bind_ok_iff.mp h
    obtain rfl := Except.ok.inj h
    obtain ⟨patch, place, value⟩ := Option.bind_eq_some_iff.mp (found_ok path)
    rw [xmlGetSubNode_image plain] at place
    obtain ⟨file, outer, inner⟩ := Option.bind_eq_some_iff.mp place
    obtain ⟨files, list⟩ := List.head?_eq_some_iff.mp outer
    obtain ⟨patches, list'⟩ := List.head?_eq_some_iff.mp inner
    rw [images, list, List.flatMap_cons, list', List.cons_append, List.take_succ_cons,
      List.take_zero]
    exact .cons value .nil
  refine (holds_iff first fun patch fpath value => iff_of_true value trivial).trans ?_
  exact and_iff_left fun _ _ => trivial

/-- The ECUs of a bus are loaded as far as there is room. -/
theorem fotaLoadBusInfo_held {node : XmlNode} {bus : BusInf} (h : fotaLoadBusInfo node = .ok bus) :
    BusHeld node bus ↔ BusFits node := by
  have loaded : List.Forall₂ (fun node ecu => fotaLoadEcuInfo node = .ok ecu)
      ((node.named (chars "ecu")).take fotaMaxEcu) bus.ecu := by
    unfold fotaLoadBusInfo at h
    obtain ⟨_, -, h⟩ := bind_ok_iff.mp h
    obtain ⟨_, -, h⟩ := bind_ok_iff.mp h
    obtain ⟨_, -, h⟩ := bind_ok_iff.mp h
    obtain ⟨_, -, h⟩ := bind_ok_iff.mp h
    obtain ⟨_, -, h⟩ := bind_ok_iff.mp h
    obtain ⟨ecu, all, h⟩ := bind_ok_iff.mp h
    obtain rfl := Except.ok.inj h
    exact mapM_forall₂ all
  have named (node : XmlNode) (ecu : EcuInf) (h : fotaLoadEcuInfo node = .ok ecu) :
      xmlGetSubValue node (chars "name") = some ecu.name := by
    unfold fotaLoadEcuInfo at h
    obtain ⟨name, first, h⟩ := bind_ok_iff.mp h
    obtain ⟨_, -, h⟩ := bind_ok_iff.mp h
    obtain ⟨_, -, h⟩ := bind_ok_iff.mp h
    obtain ⟨_, -, h⟩ := bind_ok_iff.mp h
    obtain rfl := Except.ok.inj h
    exact found_ok first
  refine (holds_iff loaded fun node ecu ok => iff_of_true (named node ecu ok) trivial).trans ?_
  exact and_iff_left fun _ _ => trivial

/-! ### ECUs and packages -/

theorem XmlNode.Plain.subNode {node sub : XmlNode} (plain : node.Plain) {fuel : Nat} {pos : CStr}
    (h : xmlSubLoop fuel node pos = some sub) : sub.Plain := by
  induction fuel generalizing node pos with
  | zero => cases h
  | succ fuel ih =>
    by_cases more : pos = []
    · rw [more, xmlSubLoop] at h
      · cases h
      · exact nofun
    · rw [xmlSubLoop_succ fuel node more] at h
      split at h
      next next found =>
        have inner := plain.child (List.mem_of_find?_eq_some found)
        split at h
        · exact Option.some.inj h ▸ inner
        · exact ih inner h
      · split at h
        · exact ih plain h
        · cases h

theorem XmlNode.Plain.node {root node : XmlNode} {name : CStr} (plain : root.Plain)
    (h : xmlGetNode (some root) name = some node) : node.Plain := by
  unfold xmlGetNode at h
  rw [Option.bind_some] at h
  dsimp only at h
  split at h
  · split at h
    · exact Option.some.inj h ▸ plain
    · split at h
      · exact plain.subNode h
      · cases h
  · cases h

/-- The node that a path leads to in a file. -/
theorem node_plain {files : CStr → Option (List UInt8)} {path name : CStr} {node : XmlNode}
    (h : xmlGetNode (rootNode files path) name = some node) : node.Plain := by
  cases root : rootNode files path with
  | none =>
    rw [root] at h
    cases h
  | some top =>
    rw [root] at h
    exact (rootNode_plain root).node h

/-- The versions of a node that are loaded are the first ones. -/
theorem versions_held {node : XmlNode} {name : CStr} {max : Nat} {vers : List FotaVer}
    (plain : node.Plain)
    (loaded : List.Forall₂ (fun node ver => fotaLoadVer node = .ok ver)
      ((node.named name).take max) vers) :
    List.Forall₂ VerHeld (node.named name) vers ↔ Fits max VerFits (node.named name) := by
  have each : ∀ ver ∈ (node.named name).take max, ver.Plain :=
    fun ver mem => plain.named (List.mem_of_mem_take mem)
  exact holds_iff ((List.forall₂_and_left _ _).mpr ⟨each, loaded⟩)
    fun node ver both => fotaLoadVer_held both.1 both.2

theorem take_one {nodes : List XmlNode} {node : XmlNode} (h : nodes.head? = some node) :
    nodes.take 1 = [node] := by
  obtain ⟨rest, rfl⟩ := List.head?_eq_some_iff.mp h
  rfl

/-- The one version of a name that is loaded. -/
theorem version_first {node sub : XmlNode} {name : CStr} {ver : FotaVer} (more : name ≠ [])
    (plain : 0x2f ∉ name) (place : xmlGetSubNode node name = some sub)
    (loaded : fotaLoadVer sub = .ok ver) :
    List.Forall₂ (fun node ver => fotaLoadVer node = .ok ver) ((node.named name).take 1) [ver] := by
  rw [xmlGetSubNode_one more plain] at place
  rw [take_one place]
  exact .cons loaded .nil

theorem rootNode_eq {files : CStr → Option (List UInt8)} {path : CStr} {root : Option XmlNode}
    (h : xmlLoadRoot (files path) = .ok root) : rootNode files path = root := by
  rw [rootNode, h]
  rfl

/-- What `fota_load_ecu_file` takes from the file of an ECU. -/
theorem fotaLoadEcuFile_ok {files : CStr → Option (List UInt8)} {path name : CStr} {src : FotaVer}
    {ecu : FotaEcu} (h : fotaLoadEcuFile (files path) name src = .ok ecu) :
    ecu.name = name ∧ ecu.src = src ∧ ∃ info, xmlGetNode (rootNode files path) name = some info ∧
      (List.Forall₂ VerHeld (info.named (chars "flashver")) ecu.tar.toList ↔
        Fits 1 VerFits (info.named (chars "flashver"))) ∧
      (List.Forall₂ VerHeld (info.named (chars "flashdrv")) ecu.drv.toList ↔
        Fits 1 VerFits (info.named (chars "flashdrv"))) ∧
      (List.Forall₂ VerHeld (info.named (chars "relver")) ecu.rel ↔
        Fits fotaMaxRelVer VerFits (info.named (chars "relver"))) := by
  unfold fotaLoadEcuFile at h
  obtain ⟨root, file, h⟩ := bind_ok_iff.mp h
  obtain ⟨info, node, h⟩ := bind_ok_iff.mp h
  obtain ⟨_, -, h⟩ := bind_ok_iff.mp h
  obtain ⟨_, -, h⟩ := bind_ok_iff.mp h
  obtain ⟨tarNode, place, h⟩ := bind_ok_iff.mp h
  obtain ⟨tar, target, h⟩ := bind_ok_iff.mp h
  obtain ⟨drv, driver, h⟩ := bind_ok_iff.mp h
  obtain ⟨_, -, h⟩ := bind_ok_iff.mp h
  obtain ⟨rel, related, h⟩ := bind_ok_iff.mp h
  obtain ⟨_, -, h⟩ := bind_ok_iff.mp h
  obtain ⟨_, -, h⟩ := bind_ok_iff.mp h
  obtain rfl := Except.ok.inj h
  rw [← rootNode_eq file] at node
  have node := found_ok node
  have plain := node_plain node
  refine ⟨rfl, rfl, info, node, ?_, ?_, ?_⟩
  · exact versions_held plain
      (version_first (by decide) (by decide) (found_ok place) target)
  · refine versions_held plain ?_
    cases first : xmlGetSubNode info (chars "flashdrv") with
    | none =>
      rw [first] at driver
      obtain rfl := Except.ok.inj driver
      rw [xmlGetSubNode_one (by decide) (by decide), List.head?_eq_none_iff] at first
      rw [first]
      exact .nil
    | some sub =>
      rw [first] at driver
      obtain ⟨ver, loaded, driver⟩ := bind_ok_iff.mp driver
      obtain rfl := Except.ok.inj driver
      exact version_first (by decide) (by decide) first loaded
  · exact versions_held plain (mapM_forall₂ related)

theorem fotaLoadEcu_held {files : CStr → Option (List UInt8)} {root : CStr} {node : XmlNode}
    {ecu : FotaEcu} (plain : node.Plain) (h : fotaLoadEcu files root node = .ok ecu) :
    EcuHeld files root node ecu ↔ EcuFits files root node := by
  unfold fotaLoadEcu at h
  obtain ⟨name, named, h⟩ := bind_ok_iff.mp h
  obtain ⟨_, -, h⟩ := bind_ok_iff.mp h
  obtain ⟨path, info, h⟩ := bind_ok_iff.mp h
  obtain ⟨_, -, h⟩ := bind_ok_iff.mp h
  obtain ⟨_, -, h⟩ := bind_ok_iff.mp h
  obtain ⟨srcNode, place, h⟩ := bind_ok_iff.mp h
  obtain ⟨src, source, h⟩ := bind_ok_iff.mp h
  obtain ⟨rfl, rfl, own, found, target, driver, related⟩ := fotaLoadEcuFile_ok h
  have named := found_ok named
  have source := versions_held plain
    (version_first (by decide) (by decide) (found_ok place) source)
  have node : infoNode files root node = some own := by
    rw [infoNode, named, found_ok info]
    exact found
  unfold EcuHeld EcuFits
  rw [source, node]
  constructor
  · rintro ⟨-, src, _, ⟨⟩, tar, drv, rel⟩
    refine ⟨src, ?_⟩
    rintro _ ⟨⟩
    exact ⟨target.mp tar, driver.mp drv, related.mp rel⟩
  · rintro ⟨src, all⟩
    obtain ⟨tar, drv, rel⟩ := all own rfl
    exact ⟨named, src, own, rfl, target.mpr tar, driver.mpr drv, related.mpr rel⟩

/-- The ECUs that are loaded are the first ones of the first strategy. -/
theorem listedEcus_held {files : CStr → Option (List UInt8)} {root : CStr} {fota strategy : XmlNode}
    {ecus : List FotaEcu} (plain : fota.Plain)
    (first : (fota.named (chars "strategy")).head? = some strategy)
    (loaded : List.Forall₂ (fun node ecu => fotaLoadEcu files root node = .ok ecu)
      ((strategy.named (chars "ecu")).take fotaMaxEcu) ecus) :
    List.Forall₂ (EcuHeld files root) (listedEcus fota) ecus ↔
      (∀ other ∈ (fota.named (chars "strategy")).tail, other.named (chars "ecu") = []) ∧
        Fits fotaMaxEcu (EcuFits files root) (listedEcus fota) := by
  obtain ⟨others, list⟩ := List.head?_eq_some_iff.mp first
  have inner : strategy.Plain := plain.named (by rw [list]; exact List.mem_cons_self)
  have each : ∀ node ∈ (strategy.named (chars "ecu")).take fotaMaxEcu, node.Plain :=
    fun node mem => inner.named (List.mem_of_mem_take mem)
  have held : List.Forall₂ (EcuHeld files root) (strategy.named (chars "ecu")) ecus ↔
      Fits fotaMaxEcu (EcuFits files root) (strategy.named (chars "ecu")) :=
    holds_iff ((List.forall₂_and_left _ _).mpr ⟨each, loaded⟩)
      fun node ecu both => fotaLoadEcu_held both.1 both.2
  have split : listedEcus fota =
      strategy.named (chars "ecu") ++ others.flatMap (·.named (chars "ecu")) := by
    rw [listedEcus, list, List.flatMap_cons]
  have none : others.flatMap (·.named (chars "ecu")) = [] ↔
      ∀ other ∈ (fota.named (chars "strategy")).tail, other.named (chars "ecu") = [] := by
    rw [list, List.tail_cons, List.flatMap_eq_nil_iff]
  rw [← none, split]
  constructor
  · intro all
    have lengths := all.length_eq
    have taken := loaded.length_eq
    rw [List.length_append] at lengths
    rw [List.length_take] at taken
    have more : (others.flatMap (·.named (chars "ecu"))).length = 0 := by omega
    have empty := List.eq_nil_of_length_eq_zero more
    rw [empty, List.append_nil] at all ⊢
    exact ⟨rfl, held.mp all⟩
  · rintro ⟨empty, fits⟩
    rw [empty, List.append_nil] at fits ⊢
    exact held.mpr fits

/-- Of a description that is loaded, the result holds all that is listed exactly if the tables
have room for it. -/
theorem held_iff {files : CStr → Option (List UInt8)} {root : CStr} {pkg : Package}
    (loaded : fotaLoad files root = .ok pkg) : Held files pkg ↔ PackageFits files pkg.root := by
  unfold fotaLoad at loaded
  obtain ⟨bus, buses, h⟩ := bind_ok_iff.mp loaded
  obtain ⟨_, -, h⟩ := bind_ok_iff.mp h
  obtain ⟨_, -, h⟩ := bind_ok_iff.mp h
  obtain ⟨xml, file, h⟩ := bind_ok_iff.mp h
  obtain ⟨fota, node, h⟩ := bind_ok_iff.mp h
  obtain ⟨strategy, place, h⟩ := bind_ok_iff.mp h
  obtain ⟨_, -, h⟩ := bind_ok_iff.mp h
  obtain ⟨_, -, h⟩ := bind_ok_iff.mp h
  obtain ⟨ecus, all, h⟩ := bind_ok_iff.mp h
  obtain rfl := Except.ok.inj h
  -- the file of the buses
  unfold fotaLoadBusFile at buses
  obtain ⟨busXml, busFile, buses⟩ := bind_ok_iff.mp buses
  obtain ⟨info, busNode, buses⟩ := bind_ok_iff.mp buses
  obtain ⟨_, -, buses⟩ := bind_ok_iff.mp buses
  obtain ⟨_, -, buses⟩ := bind_ok_iff.mp buses
  rw [← rootNode_eq file] at node
  rw [← rootNode_eq busFile] at busNode
  have node := found_ok node
  have busNode := found_ok busNode
  have place := found_ok place
  rw [xmlGetSubNode_one (by decide) (by decide)] at place
  have busesHeld : List.Forall₂ BusHeld (info.named (chars "bus")) bus ↔
      Fits fotaMaxBus BusFits (info.named (chars "bus")) :=
    holds_iff (mapM_forall₂ buses) fun node bus ok => fotaLoadBusInfo_held ok
  have ecusHeld := listedEcus_held (node_plain node) place (mapM_forall₂ all)
  unfold Held PackageFits
  dsimp only
  rw [busNode, node]
  constructor
  · rintro ⟨_, _, ⟨⟩, ⟨⟩, buses, ecus⟩
    refine ⟨?_, ?_⟩
    · rintro _ ⟨⟩
      exact busesHeld.mp buses
    · rintro _ ⟨⟩
      exact ecusHeld.mp ecus
  · rintro ⟨buses, ecus⟩
    exact ⟨info, fota, rfl, rfl, busesHeld.mpr (buses _ rfl), ecusHeld.mpr (ecus _ rfl)⟩

/-! ### A package -/

def textLines (lines : List String) : CStr := lines.flatMap fun line => chars line ++ [0x0a]

def verText : CStr :=
  textLines ["<version>1</version>", "<file>", "<patch>/i</patch>", "<format>PKG</format>",
    "</file>"]

def busText : CStr :=
  textLines ["<businfo>", "<bus>", "<port>1</port>", "<baudrate>5</baudrate>",
    "<functionid>7DF</functionid>", "<ecu>", "<name>E</name>", "<physicalid>1</physicalid>",
    "<responseid>2</responseid>", "</ecu>", "</bus>", "</businfo>"]

def fotaText : CStr :=
  textLines ["<fota>", "<strategy>", "<ecu>", "<name>E</name>", "<infoname>/e.xml</infoname>",
    "<sourcever>"] ++ verText ++ textLines ["</sourcever>", "</ecu>", "</strategy>", "</fota>"]

/-- The file of an ECU with `n` related versions. -/
def ecuText (n : Nat) : CStr :=
  textLines ["<E>", "<hwversion>1</hwversion>", "<flashver>"] ++ verText ++
    textLines ["</flashver>"] ++
    (List.replicate n (textLines ["<relver>"] ++ verText ++ textLines ["</relver>"])).flatten ++
    textLines ["</E>"]

def pkgFiles (n : Nat) (path : CStr) : Option (List UInt8) :=
  if path = xmlBusFile then some busText
  else if path = chars "/p/fota_info.xml" then some fotaText
  else if path = chars "/p/e.xml" then some (ecuText n)
  else none

instance : DecidablePred VerFits := fun _ => inferInstanceAs (Decidable (_ ≤ _))
instance : DecidablePred BusFits := fun _ => inferInstanceAs (Decidable (_ ≤ _))
instance (files : CStr → Option (List UInt8)) (root : CStr) : DecidablePred (EcuFits files root) :=
  fun _ => inferInstanceAs (Decidable (_ ∧ _))
instance (files : CStr → Option (List UInt8)) (root : CStr) : Decidable (PackageFits files root) :=
  inferInstanceAs (Decidable (_ ∧ _))

theorem held_two :
    ∃ pkg, fotaLoad (pkgFiles 2) (chars "/p/") = .ok pkg ∧ Held (pkgFiles 2) pkg := by
  have root : (fotaLoad (pkgFiles 2) (chars "/p/")).toOption.map Package.root =
      some (chars "/p") := by decide +kernel
  have fits : PackageFits (pkgFiles 2) (chars "/p") := by decide +kernel
  cases loaded : fotaLoad (pkgFiles 2) (chars "/p/") with
  | error err =>
    rw [loaded] at root
    cases root
  | ok pkg =>
    rw [loaded] at root
    have same : pkg.root = chars "/p" := Option.some.inj root
    exact ⟨pkg, rfl, (held_iff loaded).mpr (same ▸ fits)⟩

/-- As many related versions are held as are listed. -/
theorem Held.related {files : CStr → Option (List UInt8)} {pkg : Package} (held : Held files pkg) :
    (xmlGetNode (rootNode files (pkg.root ++ xmlFotaFile)) (chars "fota")).map (fun fota =>
        (listedEcus fota).map fun node => (infoNode files pkg.root node).map fun info =>
          (info.named (chars "relver")).length) =
      some (pkg.ecu.map fun ecu => some ecu.rel.length) := by
  obtain ⟨info, fota, -, node, -, ecus⟩ := held
  rw [node, Option.map_some]
  congr 1
  generalize listedEcus fota = nodes at ecus
  generalize pkg.ecu = loaded at ecus
  induction ecus with
  | nil => rfl
  | cons ecu _ ih =>
    obtain ⟨-, -, own, place, -, -, rel⟩ := ecu
    rw [List.map_cons, List.map_cons, ih, place, Option.map_some, rel.length_eq]

/-- Of five related versions, four are loaded. -/
theorem related_dropped :
    ¬ ∀ files root pkg, fotaLoad files root = .ok pkg → Held files pkg := by
  intro all
  have result : (fotaLoad (pkgFiles 5) (chars "/p/")).toOption.map (fun pkg =>
      (pkg.root, pkg.ecu.map fun ecu => some ecu.rel.length)) = some (chars "/p", [some 4]) := by
    decide +kernel
  have listed : (xmlGetNode (rootNode (pkgFiles 5) (chars "/p" ++ xmlFotaFile)) (chars "fota")).map
      (fun fota => (listedEcus fota).map fun node => (infoNode (pkgFiles 5) (chars "/p") node).map
        fun info => (info.named (chars "relver")).length) = some [some 5] := by
    decide +kernel
  cases loaded : fotaLoad (pkgFiles 5) (chars "/p/") with
  | error err =>
    rw [loaded] at result
    cases result
  | ok pkg =>
    rw [loaded] at result
    obtain ⟨root, counts⟩ := Prod.mk.inj (Option.some.inj result)
    have same := (all _ _ pkg loaded).related
    rw [root, counts, listed] at same
    exact absurd same (by decide)

end Fota
