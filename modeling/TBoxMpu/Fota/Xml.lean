import TBoxMpu.Fota.Core
import Mathlib.Data.List.DropRight

/-!
# The XML files of a package

`xml.c`: the loader with its pieces and its text buffer, the look-ups in a loaded tree, and the
listing that `xml_show` prints. A call of `calloc` is taken to succeed.
-/

namespace Fota

/-- A string is cut at the first place of a character in one way. -/
theorem split_inj {c : UInt8} {s t u v : CStr} (plain : c ∉ s) (plain' : c ∉ t)
    (h : s ++ c :: u = t ++ c :: v) : s = t ∧ u = v := by
  induction s generalizing t with
  | nil =>
    cases t with
    | nil => exact ⟨rfl, (List.cons.inj h).2⟩
    | cons d t => exact absurd (List.cons.inj h).1 fun same => plain' (same ▸ List.mem_cons_self)
  | cons b s ih =>
    cases t with
    | nil => exact absurd (List.cons.inj h).1 fun same => plain (same ▸ List.mem_cons_self)
    | cons d t =>
      obtain ⟨same, rest⟩ := List.cons.inj h
      obtain ⟨rfl, behind⟩ := ih (fun mem => plain (List.mem_cons_of_mem _ mem))
        (fun mem => plain' (List.mem_cons_of_mem _ mem)) rest
      exact ⟨by rw [same], behind⟩

/-! ### Trees -/

/-- `xml_node_t` with its children in their order. -/
inductive XmlNode
  | node (name : CStr) (value : Option CStr) (child : List XmlNode)

namespace XmlNode

mutual

def decEq : (x y : XmlNode) → Decidable (x = y)
  | .node name value child, .node name' value' child' =>
    match decEqs child child' with
    | isTrue same =>
      decidable_of_iff (name = name' ∧ value = value') (by rw [node.injEq]; simp [same])
    | isFalse other => isFalse fun same => other (node.inj same).2.2

def decEqs : (xs ys : List XmlNode) → Decidable (xs = ys)
  | [], [] => isTrue rfl
  | [], _ :: _ | _ :: _, [] => isFalse nofun
  | x :: xs, y :: ys =>
    match decEq x y, decEqs xs ys with
    | isTrue same, isTrue rest => isTrue (by rw [same, rest])
    | isFalse other, _ => isFalse fun same => other (List.cons.inj same).1
    | _, isFalse other => isFalse fun same => other (List.cons.inj same).2

end

instance : DecidableEq XmlNode := decEq

def name : XmlNode → CStr
  | .node name _ _ => name

def value : XmlNode → Option CStr
  | .node _ value _ => value

def child : XmlNode → List XmlNode
  | .node _ _ child => child

end XmlNode

/-- A node that is not closed yet, with the children that are. -/
structure XmlOpen where
  name : CStr
  value : Option CStr
  child : List XmlNode
  deriving DecidableEq

def XmlOpen.close (curr : XmlOpen) : XmlNode := .node curr.name curr.value curr.child

/-- `xml_t`: how far `spos` is in `buff`, and the nodes. `path` is `curr` with its parents.
`roots` are the nodes without a parent that are closed: with `curr` null the last of them is
`root`, and no pointer leads to the others. -/
structure Xml where
  used : Nat
  roots : List XmlNode
  path : List XmlOpen
  deriving DecidableEq

def Xml.empty : Xml := ⟨0, [], []⟩

def Xml.root (xml : Xml) : Option XmlNode := xml.roots.getLast?

/-! ### Pieces of a line -/

/-- What `xml_get_pice` returns with the text that it stores. -/
inductive XmlPice
  | tags (name : CStr)
  | tage (name : CStr)
  | tagv (value : CStr)
  | null
  deriving DecidableEq, Repr

inductive XmlErr
  | fail | fault
  deriving DecidableEq, Repr

def xmlMaxSize : Nat := 65536

/-- `XML_BUFF_SIZE`, which is negative when the buffer is full. -/
def Xml.buffSize (xml : Xml) : Int := xmlMaxSize - xml.used - 1

/-- The loop over a tag's name: the name, and the line behind the tag; `n` characters were
passed. -/
def tagName (size : Int) : Nat → CStr → Option (CStr × CStr)
  | _, [] => none
  | n, c :: rest =>
    if c = 0x3e then some ([], rest)
    else if isspace c ∨ c = 0x3c ∨ c = 0x2f ∨ size ≤ n then none
    else (tagName size (n + 1) rest).map fun (name, rest) => (c :: name, rest)

/-- A tag's name is stored with a zero behind it, outside of a full buffer also when it is
empty. -/
def xmlGetTag (pice : CStr → XmlPice) (size : Int) (src : CStr) : Except XmlErr (XmlPice × CStr) :=
  match tagName size 0 src with
  | none => .error .fail
  | some (name, rest) =>
    if size < name.length then .error .fault else .ok (pice name, rest)

/-- `xml_get_pice`; the error is `XML_PICE_ERROR`. -/
def xmlGetPice (size : Int) (str : CStr) : Except XmlErr (XmlPice × CStr) :=
  match str.dropWhile isspace with
  | [] => .ok (.null, [])
  | c :: src =>
    if c = 0x3c then
      match src.dropWhile isspace with
      | [] => .error .fail
      | d :: src => if d = 0x2f then xmlGetTag .tage size src else xmlGetTag .tags size (d :: src)
    else if c = 0x3e then .error .fail
    else
      -- up to the next tag, without the spaces before it
      let value := ((c :: src).takeWhile (· != 0x3c)).rdropWhile isspace
      if value.length < size then .ok (.tagv value, (c :: src).drop value.length) else .error .fail

/-! ### The loader -/

/-- Closing the current node makes it the last child of its parent. -/
def Xml.closed (xml : Xml) (curr : XmlOpen) : List XmlOpen → Xml
  | [] => { xml with roots := xml.roots ++ [curr.close], path := [] }
  | parent :: path =>
    { xml with path := { parent with child := parent.child ++ [curr.close] } :: path }

def Xml.stored (xml : Xml) (text : CStr) : Xml := { xml with used := xml.used + text.length + 1 }

/-- One round of the loop of `xml_parse_line`. -/
def xmlUse (pice : XmlPice) (xml : Xml) : Except XmlErr Xml :=
  match pice, xml.path with
  | .tags name, [] => .ok { xml.stored name with path := [⟨name, none, []⟩] }
  | .tags name, curr :: path =>
    if curr.name = name then .error .fail
    else .ok { xml.stored name with path := ⟨name, none, []⟩ :: curr :: path }
  | .tage _, [] => .error .fail
  | .tage name, curr :: path =>
    if curr.name ≠ name then .error .fail else .ok ((xml.stored name).closed curr path)
  | .tagv _, [] => .error .fail
  | .tagv value, curr :: path =>
    if curr.value ≠ none then .error .fail
    else .ok { xml.stored value with path := { curr with value := some value } :: path }
  | .null, _ => .ok xml

/-- The loop; each piece takes a character at least, so a line is done before the fuel is. -/
def xmlParse : Nat → CStr → Xml → Except XmlErr Xml
  | 0, _, xml => .ok xml
  | fuel + 1, str, xml => do
    let (pice, rest) ← xmlGetPice xml.buffSize str
    let xml ← xmlUse pice xml
    if pice = .null then pure xml else xmlParse fuel rest xml

/-- `xml_parse_line` on what is in the buffer, up to the zero byte. -/
def xmlParseLine (xml : Xml) (lbuf : List UInt8) : Except XmlErr Xml :=
  let line := (lbuf.takeWhile (· != 0)).dropWhile isspace
  if line.headD 0 = 0x23 then .ok xml else xmlParse (line.length + 1) line xml

/-- `xml_load`; `file` is what can be read of the file. -/
def xmlLoad (file : Option (List UInt8)) : Except XmlErr Xml :=
  match file with
  | none => .error .fail
  | some text => do
    let xml ← (fgets 1023 [] 1023 text).foldlM xmlParseLine .empty
    if xml.path ≠ [] then .error .fail else .ok xml

/-! ### The listing -/

/-- Two spaces for each level. -/
def indent (level : Nat) : CStr := List.replicate (2 * level) 0x20

/-- " name  : " -/
def nameLabel : CStr := [0x20, 0x6e, 0x61, 0x6d, 0x65, 0x20, 0x20, 0x3a, 0x20]

/-- " value : " -/
def valueLabel : CStr := [0x20, 0x76, 0x61, 0x6c, 0x75, 0x65, 0x20, 0x3a, 0x20]

def listingLine (level : Nat) (label text : CStr) : CStr :=
  indent level ++ label ++ text ++ [0x0d, 0x0a]

mutual

/-- `xml_node_show`: the text that is given to `shellprintf`. -/
def xmlNodeShow (level : Nat) : XmlNode → CStr
  | .node name value child =>
    listingLine level nameLabel name ++ (value.elim [] (listingLine level valueLabel) ++
      xmlNodesShow (level + 1) child)

def xmlNodesShow (level : Nat) : List XmlNode → CStr
  | [] => []
  | xnode :: rest => xmlNodeShow level xnode ++ xmlNodesShow level rest

end

/-- `xml_show` -/
def xmlShow (xml : Xml) : CStr := xml.root.elim [] (xmlNodeShow 0)

end Fota
