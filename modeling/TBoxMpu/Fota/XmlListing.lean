import TBoxMpu.Fota.Xml

/-!
# The listing of a tree

`xml_show` prints the names and values of a tree for the shell, a line each and indented by
their level. No two trees have the same listing, but it has no tags, and `xml_load` refuses it
(`listing_refused`).
-/

namespace Fota

/-! ### Trees that are listed -/

/-- A string of ordinary characters. -/
def Token (text : CStr) : Prop :=
  text ≠ [] ∧ ∀ c ∈ text, isspace c = false ∧ c ≠ 0 ∧ c ≠ 0x3c ∧ c ≠ 0x3e ∧ c ≠ 0x2f

instance (text : CStr) : Decidable (Token text) := inferInstanceAs (Decidable (_ ∧ _))

mutual

def XmlNode.Ordinary : XmlNode → Prop
  | .node name value child => Token name ∧ (∀ text ∈ value, Token text) ∧ Ordinaries child

def Ordinaries : List XmlNode → Prop
  | [] => True
  | node :: rest => node.Ordinary ∧ Ordinaries rest

end

theorem Token.no_return {text : CStr} (token : Token text) : 0x0d ∉ text := by
  intro mem
  exact absurd (token.2 _ mem).1 (by decide)

/-! ### Lines of a listing -/

/-- A line ends at its carriage return. -/
theorem line_inj {level : Nat} {label x y rest rest' : CStr} (plain : 0x0d ∉ x) (plain' : 0x0d ∉ y)
    (h : listingLine level label x ++ rest = listingLine level label y ++ rest') :
    x = y ∧ rest = rest' := by
  simp only [listingLine, List.append_assoc, List.append_cancel_left_eq, List.cons_append,
    List.nil_append] at h
  obtain ⟨same, behind⟩ := split_inj plain plain' h
  exact ⟨same, (List.cons.inj behind).2⟩

/-- Lines tell their level and label by the spaces that they start with. -/
theorem indent_inj {level level' : Nat} {c d : UInt8} {s t : CStr} (letter : c ≠ 0x20)
    (letter' : d ≠ 0x20) (h : indent level ++ 0x20 :: c :: s = indent level' ++ 0x20 :: d :: t) :
    level = level' ∧ c = d := by
  induction level generalizing level' with
  | zero =>
    cases level' with
    | zero => exact ⟨rfl, (List.cons.inj (List.cons.inj h).2).1⟩
    | succ level' => exact absurd (List.cons.inj (List.cons.inj h).2).1 letter
  | succ level ih =>
    cases level' with
    | zero => exact absurd (List.cons.inj (List.cons.inj h).2).1.symm letter'
    | succ level' =>
      obtain ⟨same, labels⟩ := ih (List.cons.inj (List.cons.inj h).2).2
      exact ⟨congrArg (· + 1) same, labels⟩

/-- What follows a node: nothing, or the name of a node above. -/
def Above (level : Nat) (rest : CStr) : Prop :=
  rest = [] ∨ ∃ upper text, upper < level ∧ rest = indent upper ++ 0x20 :: 0x6e :: text

theorem above_mono {level : Nat} {rest : CStr} (above : Above level rest) :
    Above (level + 1) rest :=
  above.imp_right fun ⟨upper, text, lt, same⟩ => ⟨upper, text, Nat.lt_succ_of_lt lt, same⟩

theorem label_line (level : Nat) (c : UInt8) (label text rest : CStr) :
    listingLine level (0x20 :: c :: label) text ++ rest =
      indent level ++ 0x20 :: c :: (label ++ (text ++ 0x0d :: 0x0a :: rest)) := by
  simp [listingLine]

theorem node_line (level : Nat) (node : XmlNode) (rest : CStr) :
    ∃ text, xmlNodeShow level node ++ rest = indent level ++ 0x20 :: 0x6e :: text := by
  obtain ⟨name, value, child⟩ := node
  rw [xmlNodeShow, List.append_assoc]
  exact ⟨_, label_line ..⟩

theorem nodes_above {level : Nat} {rest : CStr} (above : Above level rest) (nodes : List XmlNode) :
    Above (level + 1) (xmlNodesShow level nodes ++ rest) := by
  cases nodes with
  | nil => exact above_mono above
  | cons node nodes =>
    obtain ⟨text, line⟩ := node_line level node (xmlNodesShow level nodes ++ rest)
    refine .inr ⟨level, text, Nat.lt_succ_self _, ?_⟩
    rw [xmlNodesShow, List.append_assoc, line]

/-- No line of the level follows that begins with anything but a name. -/
theorem above_ne {level : Nat} {rest : CStr} (above : Above level rest) (nodes : List XmlNode)
    {c : UInt8} (letter : c ≠ 0x20) (other : c ≠ 0x6e) (lower : Nat) (text : CStr) :
    xmlNodesShow level nodes ++ rest ≠ indent lower ++ 0x20 :: c :: text := by
  intro h
  rcases nodes_above above nodes with none | ⟨upper, text', -, line⟩
  · rw [none] at h
    exact absurd h.symm (by simp)
  · exact other (indent_inj (by decide) letter (line.symm.trans h)).2.symm

theorem not_node {level : Nat} {rest text : CStr} (above : Above level rest) :
    rest ≠ indent level ++ 0x20 :: 0x6e :: text := by
  intro h
  rcases above with none | ⟨upper, text', lt, line⟩
  · rw [none] at h
    exact absurd h.symm (by simp)
  · have same := (indent_inj (by decide) (by decide) (line.symm.trans h)).1
    omega

mutual

theorem show_inj {level : Nat} {x y : XmlNode} (ordinary : x.Ordinary) (ordinary' : y.Ordinary)
    {rest rest' : CStr} (above : Above (level + 1) rest) (above' : Above (level + 1) rest')
    (h : xmlNodeShow level x ++ rest = xmlNodeShow level y ++ rest') : x = y ∧ rest = rest' := by
  match x, y with
  | .node name value child, .node name' value' child' =>
    rw [XmlNode.Ordinary] at ordinary ordinary'
    simp only [xmlNodeShow, List.append_assoc] at h
    obtain ⟨rfl, later⟩ := line_inj ordinary.1.no_return ordinary'.1.no_return h
    cases value with
    | none =>
      cases value' with
      | none =>
        obtain ⟨rfl, same⟩ := shows_inj ordinary.2.2 ordinary'.2.2 above above' later
        exact ⟨rfl, same⟩
      | some text =>
        exact absurd (later.trans (label_line ..))
          (above_ne above child (by decide) (by decide) _ _)
    | some text =>
      cases value' with
      | none =>
        exact absurd (later.symm.trans (label_line ..))
          (above_ne above' child' (by decide) (by decide) _ _)
      | some text' =>
        obtain ⟨rfl, last⟩ :=
          line_inj (ordinary.2.1 _ rfl).no_return (ordinary'.2.1 _ rfl).no_return later
        obtain ⟨rfl, same⟩ := shows_inj ordinary.2.2 ordinary'.2.2 above above' last
        exact ⟨rfl, same⟩

theorem shows_inj {level : Nat} {xs ys : List XmlNode} (ordinary : Ordinaries xs)
    (ordinary' : Ordinaries ys) {rest rest' : CStr} (above : Above level rest)
    (above' : Above level rest')
    (h : xmlNodesShow level xs ++ rest = xmlNodesShow level ys ++ rest') :
    xs = ys ∧ rest = rest' := by
  match xs, ys with
  | [], [] => exact ⟨rfl, h⟩
  | [], y :: ys =>
    obtain ⟨text, line⟩ := node_line level y (xmlNodesShow level ys ++ rest')
    rw [xmlNodesShow, xmlNodesShow, List.append_assoc, line] at h
    exact absurd h (not_node above)
  | x :: xs, [] =>
    obtain ⟨text, line⟩ := node_line level x (xmlNodesShow level xs ++ rest)
    rw [xmlNodesShow, xmlNodesShow, List.append_assoc, line] at h
    exact absurd h.symm (not_node above')
  | x :: xs, y :: ys =>
    rw [xmlNodesShow, xmlNodesShow, List.append_assoc, List.append_assoc] at h
    obtain ⟨rfl, later⟩ :=
      show_inj ordinary.1 ordinary'.1 (nodes_above above xs) (nodes_above above' ys) h
    obtain ⟨rfl, same⟩ := shows_inj ordinary.2 ordinary'.2 above above' later
    exact ⟨rfl, same⟩

end

/-! ### Loading a listing -/

/-- What `fgets` returns first starts with what was read before. -/
theorem fgets_first (room left : Nat) (line text : List UInt8) (some : line ≠ []) :
    ∃ tail rest, fgets room line left text = (line ++ tail) :: rest := by
  induction text generalizing line left with
  | nil =>
    rw [fgets, if_neg some]
    exact ⟨[], [], by rw [List.append_nil]⟩
  | cons c text ih =>
    rw [fgets]
    split
    · exact ⟨[c], _, rfl⟩
    · obtain ⟨tail, rest, same⟩ := ih (left - 1) (line ++ [c]) (by simp)
      rw [same]
      exact ⟨c :: tail, rest, by rw [List.append_assoc]; rfl⟩

/-- Text outside of all tags is refused. -/
theorem xmlParse_text {c : UInt8} (text : isspace c = false) (tag : c ≠ 0x3c) (fuel : Nat)
    (rest : CStr) : xmlParse (fuel + 1) (c :: rest) .empty = .error .fail := by
  have skip : (c :: rest).dropWhile isspace = c :: rest :=
    List.dropWhile_cons_of_neg (by simp [text])
  rw [xmlParse, xmlGetPice, skip]
  dsimp only
  rw [if_neg tag]
  split
  · rfl
  · split <;> rfl

theorem xmlLoad_listing (tree : XmlNode) :
    xmlLoad (some (xmlNodeShow 0 tree)) = .error .fail := by
  obtain ⟨text, line⟩ := node_line 0 tree []
  rw [List.append_nil] at line
  rw [line]
  have first : fgets 1023 [] 1023 (0x20 :: 0x6e :: text) = fgets 1023 [0x20, 0x6e] 1021 text := rfl
  obtain ⟨tail, rest, lines⟩ := fgets_first 1023 1021 [0x20, 0x6e] text nofun
  have refused : xmlParseLine .empty ([0x20, 0x6e] ++ tail) = .error .fail :=
    xmlParse_text (by decide) (by decide) _ _
  unfold xmlLoad
  dsimp only
  rw [show indent 0 ++ 0x20 :: 0x6e :: text = 0x20 :: 0x6e :: text from rfl, first, lines,
    List.foldlM_cons, refused]
  rfl

theorem xmlShow_root {xml : Xml} {tree : XmlNode} (root : xml.root = some tree) :
    xmlShow xml = xmlNodeShow 0 tree := by
  rw [xmlShow, root, Option.elim_some]

/-- The loader refuses the listing of a tree, and no other tree has the same listing. -/
theorem listing_refused {xml : Xml} {tree : XmlNode} (root : xml.root = some tree)
    (ordinary : tree.Ordinary) :
    xmlLoad (some (xmlShow xml)) = .error .fail ∧
      ∀ (xml' : Xml) (tree' : XmlNode), xml'.root = some tree' → tree'.Ordinary →
        xmlShow xml' = xmlShow xml → tree' = tree := by
  rw [xmlShow_root root]
  refine ⟨xmlLoad_listing tree, fun xml' tree' root' ordinary' same => ?_⟩
  rw [xmlShow_root root'] at same
  have whole : xmlNodeShow 0 tree' ++ [] = xmlNodeShow 0 tree ++ [] := by rw [same]
  exact (show_inj ordinary' ordinary (.inl rfl) (.inl rfl) whole).1

/-- A node `a` with the value `1` and a child `b`. -/
def smallTree : XmlNode := .node [0x61] (some [0x31]) [.node [0x62] none []]

theorem smallTree_ordinary : smallTree.Ordinary := by
  refine ⟨by decide +kernel, ?_, ⟨by decide +kernel, nofun, trivial⟩, trivial⟩
  rintro _ ⟨⟩
  decide +kernel

theorem listing_small :
    xmlLoad (some (xmlShow ⟨0, [smallTree], []⟩)) = .error .fail ∧
      ∀ (xml' : Xml) (tree' : XmlNode), xml'.root = some tree' → tree'.Ordinary →
        xmlShow xml' = xmlShow ⟨0, [smallTree], []⟩ → tree' = smallTree :=
  listing_refused rfl smallTree_ordinary

/-- The listing of a single node `a` is ` name  : a`, and that is no XML. -/
theorem listing_not_loaded : (XmlNode.node [0x61] none []).Ordinary ∧
    ¬ ∃ xml, xmlLoad (some (xmlShow ⟨0, [.node [0x61] none []], []⟩)) = .ok xml ∧
      xml.root = some (.node [0x61] none []) := by
  refine ⟨⟨by decide +kernel, nofun, trivial⟩, ?_⟩
  rintro ⟨xml, loaded, -⟩
  have refused : xmlLoad (some (xmlShow ⟨0, [.node [0x61] none []], []⟩)) = .error .fail := by
    decide +kernel
  cases refused.symm.trans loaded

end Fota
