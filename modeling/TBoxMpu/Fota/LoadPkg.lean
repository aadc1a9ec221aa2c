import TBoxMpu.Fota.Xml
import TBoxMpu.Lib.Checked
import TBoxMpu.Lib.Scanf

/-!
# Loading the description of a package

`fota_load.c` with the look-ups of `xml.c`. Every failure is a result of -1; the log lines are
left out, and so are the name, vehicle, description and version of a package.
-/

namespace Fota

open Checked Scanf

/-! ### Look-ups -/

/-- A child whose name the path starts with, as a whole component. -/
def onPath (pos : CStr) (sub : XmlNode) : Bool :=
  sub.name.isPrefixOf pos &&
    let rest := pos.drop sub.name.length
    rest.isEmpty || rest.headD 0 == 0x2f

/-- The loop of `xml_get_sub_node`: each round takes a character of the path at least. -/
def xmlSubLoop : Nat → XmlNode → CStr → Option XmlNode
  | 0, _, _ => none
  | _, _, [] => none
  | fuel + 1, node, pos =>
    match node.child.find? (onPath pos) with
    | some sub =>
      let rest := pos.drop sub.name.length
      if rest = [] then some sub else xmlSubLoop fuel sub rest.tail
    | none => if pos.headD 0 = 0x2f then xmlSubLoop fuel node pos.tail else none

def xmlGetSubNode (node : XmlNode) (name : CStr) : Option XmlNode :=
  let pos := name.dropWhile (· = 0x2f)
  xmlSubLoop (pos.length + 1) node pos

def xmlGetSubValue (node : XmlNode) (name : CStr) : Option CStr :=
  (xmlGetSubNode node name).bind XmlNode.value

/-- The nodes of a name, as many of them as there is room for. -/
def xmlGetSubNodeLst (node : XmlNode) (name : CStr) (max : Nat) : List XmlNode :=
  (node.child.filter (·.name = name)).take max

def xmlGetNode (root : Option XmlNode) (name : CStr) : Option XmlNode :=
  root.bind fun root =>
    let name := name.dropWhile (· = 0x2f)
    if root.name.isPrefixOf name then
      let rest := name.drop root.name.length
      if rest = [] then some root
      else if rest.headD 0 = 0x2f then xmlGetSubNode root rest else none
    else none

/-! ### Numbers -/

/-- `%x` as an `int`: a sign, the prefix `0x` and digits; a value too large is the largest. -/
def scanHex (s : CStr) : Option Int :=
  let s := s.dropWhile isBlank
  let (minus, s) := if s.headD 0 = 0x2d then (true, s.tail)
    else if s.headD 0 = 0x2b then (false, s.tail) else (false, s)
  let pre := s.headD 0 = 0x30 ∧ toupper (s.getD 1 0) = 0x58
  let digits := (if pre then s.drop 2 else s).takeWhile isxdigit
  if digits = [] ∧ ¬ pre then none
  else
    let n := digits.foldl (fun n c => 16 * n + (hexval c).toNat) 0
    let value : Int := if 2 ^ 32 ≤ n then 2 ^ 32 - 1 else if minus then -n else n
    some (Int32.ofInt value).toInt

def scanDec (s : CStr) : Option Int :=
  match scan [.decimal true] s with
  | ([.number n], _) => some (Scanf.toUInt32 n).toInt32.toInt
  | _ => none

/-- What has to be there. -/
def found {α : Type} : Option α → Except XmlErr α
  | some a => .ok a
  | none => .error .fail

/-! ### Buses -/

def fotaMaxBus : Nat := 5
def fotaMaxEcu : Nat := 16
def fotaMaxRelVer : Nat := 4
def fotaMaxKeyPar : Nat := 4
def fotaMaxEcuname : Nat := 16

def fotaLoadEcuInfo (node : XmlNode) : Except XmlErr EcuInf := do
  let name ← found (xmlGetSubValue node (chars "name"))
  need .fail (name.length < fotaMaxEcuname)
  let pid ← found ((xmlGetSubValue node (chars "physicalid")).bind scanHex)
  let rid ← found ((xmlGetSubValue node (chars "responseid")).bind scanHex)
  pure ⟨name, pid, rid⟩

def fotaLoadBusInfo (node : XmlNode) : Except XmlErr BusInf := do
  let port ← found ((xmlGetSubValue node (chars "port")).bind scanDec)
  let baud ← found ((xmlGetSubValue node (chars "baudrate")).bind scanDec)
  let fid ← found ((xmlGetSubValue node (chars "functionid")).bind scanHex)
  let nodes := xmlGetSubNodeLst node (chars "ecu") fotaMaxEcu
  need .fail (nodes.length ≤ fotaMaxEcu)
  need .fail (0 < nodes.length)
  let ecu ← nodes.mapM fotaLoadEcuInfo
  pure ⟨port, baud, fid, ecu⟩

/-- `xml_load` on a file, and its root. -/
def xmlLoadRoot (file : Option (List UInt8)) : Except XmlErr (Option XmlNode) := do
  let xml ← xmlLoad file
  pure xml.root

def fotaLoadBusFile (file : Option (List UInt8)) : Except XmlErr (List BusInf) := do
  let root ← xmlLoadRoot file
  let node ← found (xmlGetNode root (chars "businfo"))
  let nodes := xmlGetSubNodeLst node (chars "bus") fotaMaxBus
  need .fail (0 < nodes.length)
  need .fail (nodes.length ≤ fotaMaxBus)
  nodes.mapM fotaLoadBusInfo

/-! ### Versions -/

/-- `img_load`, `img_calc` and `img_attr` for a format. -/
def fotaFormat (node : XmlNode) (format : CStr) : Except XmlErr (Option ImgLoader × UInt32) :=
  if format = chars "S19" then .ok (some .s19, 0)
  else if format = chars "S19W2" then .ok (some .s19, 1)
  else if format = chars "HEX" then .ok (some .hex, 0)
  else if format = chars "BIN" then
    let address := (xmlGetSubValue node (chars "file/address")).bind scanHex
    .ok (some .bin, UInt32.ofInt (address.getD 0))
  else if format = chars "PKG" then .ok (none, 0)
  else .error .fail

def fotaLoadVer (node : XmlNode) : Except XmlErr FotaVer := do
  let ver ← found (xmlGetSubValue node (chars "version"))
  need .fail (ver.length < 32)
  let fpath ← found (xmlGetSubValue node (chars "file/patch"))
  need .fail (fpath.headD 0 = 0x2f)
  -- the message about the length takes a number for a string
  need .fault (fpath.length < 128)
  let format ← found (xmlGetSubValue node (chars "file/format"))
  let (imgLoad, imgAttr) ← fotaFormat node format
  pure ⟨ver, fpath, imgLoad, imgAttr⟩

/-! ### ECUs and packages -/

/-- A parameter; `sscanf` on a node without a value reads through a null pointer. -/
def fotaLoadKeyPar (node : XmlNode) : Except XmlErr Int :=
  match node.value with
  | none => .error .fault
  | some value => .ok ((scanHex value).getD 0)

/-- `fota_load_ecu_file` for the ECU with a name and a source version. -/
def fotaLoadEcuFile (file : Option (List UInt8)) (name : CStr) (src : FotaVer) :
    Except XmlErr FotaEcu := do
  let root ← xmlLoadRoot file
  let ecuNode ← found (xmlGetNode root name)
  let hwVer ← found (xmlGetSubValue ecuNode (chars "hwversion"))
  need .fail (hwVer.length < 32)
  let tar ← (← found (xmlGetSubNode ecuNode (chars "flashver"))) |> fotaLoadVer
  let drv ← (xmlGetSubNode ecuNode (chars "flashdrv")).mapM fotaLoadVer
  let relNodes := xmlGetSubNodeLst ecuNode (chars "relver") fotaMaxRelVer
  need .fail (relNodes.length ≤ fotaMaxRelVer)
  let rel ← relNodes.mapM fotaLoadVer
  let parNodes := xmlGetSubNodeLst ecuNode (chars "keypar") fotaMaxKeyPar
  need .fail (parNodes.length ≤ fotaMaxKeyPar)
  let keyPar ← parNodes.mapM fotaLoadKeyPar
  let keyLvl := ((xmlGetSubValue ecuNode (chars "keylvl")).bind scanDec).getD 1
  pure ⟨name, hwVer, src, some tar, rel, drv, keyPar, keyLvl⟩

/-- One round of the loop of `fota_load`. -/
def fotaLoadEcu (files : CStr → Option (List UInt8)) (root : CStr) (node : XmlNode) :
    Except XmlErr FotaEcu := do
  let name ← found (xmlGetSubValue node (chars "name"))
  need .fail (name.length < fotaMaxEcuname)
  let info ← found (xmlGetSubValue node (chars "infoname"))
  need .fail (info.headD 0 = 0x2f)
  need .fail (root.length + info.length < 256)
  let src ← (← found (xmlGetSubNode node (chars "sourcever"))) |> fotaLoadVer
  fotaLoadEcuFile (files (root ++ info)) name src

def xmlFotaFile : CStr := chars "/fota_info.xml"
def xmlBusFile : CStr := chars "/home/root/foton/bus_info.xml"

/-- `fota_load`; `files` is what can be read of each file. -/
def fotaLoad (files : CStr → Option (List UInt8)) (root : CStr) : Except XmlErr Package := do
  let root := root.rdropWhile (· = 0x2f)
  let bus ← fotaLoadBusFile (files xmlBusFile)
  need .fail (root.length < 256)
  need .fail (root.length + xmlFotaFile.length < 256)
  let xml ← xmlLoadRoot (files (root ++ xmlFotaFile))
  let node ← found (xmlGetNode xml (chars "fota"))
  let strategy ← found (xmlGetSubNode node (chars "strategy"))
  let nodes := xmlGetSubNodeLst strategy (chars "ecu") fotaMaxEcu
  need .fail (nodes.length ≠ 0)
  need .fail (nodes.length ≤ fotaMaxEcu)
  let ecu ← nodes.mapM (fotaLoadEcu files root)
  pure ⟨root, bus, ecu⟩

end Fota
