/-!
# Reading a DBC file

`can_dbc.c` from the lines of a file to a table. What `sscanf` makes of a text is `Scan`, one
field for each format of the program; a registered client is the GB32960 layer or another
one, which answers as it likes. A text in memory is the list of bytes from its address on.
-/

namespace Can

/-- Bytes of a text, from its address on; a string ends before the first zero. -/
abbrev Bytes := List UInt8

def dbcMaxMessage : Nat := 256

def dbcMaxSignal : Nat := 1024

def dbcMaxMatchid : Nat := 64

def dbcMaxCallback : Nat := 16

def dbcSuffixLen : Nat := 16

def canMaxPort : Nat := 5

/-- Of two buffers, the one that is not active; the first one at first. -/
def spareOf : Option Bool → Bool
  | none => false
  | some b => !b

/-! ### The table -/

/-- What one signal line gives, in the order of its format. -/
structure SigFields (F : Type) where
  name : Bytes
  start : Int32
  size : Int32
  order : UInt8
  sign : UInt8
  factor : F
  offset : F
  min : F
  max : F
  unit : Bytes

/-- `dbc_sig_t`. `gbFields` is not in the program: the fields of the definition that were
given to the GB32960 layer. -/
structure DbcSig (F : Type) where
  name : Bytes
  unit : Bytes
  ecu : Bytes
  suffix : Bytes
  order : UInt8
  sign : UInt8
  start : Int32
  size : Int32
  factor : F
  offset : F
  min : F
  max : F
  init : F
  lastv : F
  value : F
  flags : UInt32
  usrflags : UInt32
  port : UInt32
  midx : UInt32
  mi : List UInt32
  mv : List F
  gbFields : List (UInt32 × UInt32)

/-- `dbc_msg_t`; `siglst` holds the signals' places in the table. -/
structure DbcMsg where
  id : UInt32
  ecu : Bytes
  siglst : List Nat

/-- `dbc_data_t`; the counts are the lengths of the lists. -/
structure DbcData (F : Type) where
  fpath : Bytes
  msglst : List DbcMsg
  siglst : List (DbcSig F)
  md5 : Bytes

/-- What `sscanf` reads with each format, where it reads every item of it, and `MD5`. -/
structure Scan (F : Type) where
  zero : F
  md5 : List Bytes → Bytes
  version : Bytes → Bool
  getKwd : Bytes → Option Bytes
  getMsg : Bytes → Option (UInt32 × Bytes)
  getSig : Bytes → Option (SigFields F)
  hsBaudrate : Bytes → Option UInt16
  msBaudrate : Bytes → Option UInt16
  lsBaudrate : Bytes → Option UInt16
  baudrate : Bytes → Option (UInt16 × UInt16)
  getDef : Bytes → Option (Bytes × F)
  sfxPort : Bytes → Option UInt32
  sfxMatch : Bytes → Option (F × UInt32)
  sfxIndex : Bytes → Option UInt32
  gbField : Bytes → Option (UInt32 × UInt32)

variable {F : Type}

/-- After `memset`. -/
def DbcSig.cleared (zero : F) : DbcSig F :=
  ⟨[], [], [], [], 0, 0, 0, 0, zero, zero, zero, zero, zero, zero, zero, 0, 0, 0, 0,
    List.replicate 4 0, List.replicate 4 zero, []⟩

def dbcFindMsg (dbc : DbcData F) (id : UInt32) : Option Nat :=
  dbc.msglst.findIdx? (·.id = id)

def dbcFindSig (dbc : DbcData F) (name : Bytes) : Option Nat :=
  dbc.siglst.findIdx? (·.name = name)

def dbcResetSignal (dbc : DbcData F) : DbcData F :=
  { dbc with siglst := dbc.siglst.map fun s => { s with value := s.init, lastv := s.init } }

/-! ### Clients -/

inductive Client
  | gb
  | other (n : Nat)
  deriving DecidableEq, Repr

/-- `DBC_EVENT_TYPE`, what of it a load gives to the clients. A signal is known by its id. -/
inductive DbcEvent
  | surfix (id : Nat) (sfx : Bytes)
  | define (line : Bytes)
  | reload (fpath : Bytes)
  | finished (ret : Int32)

abbrev Call := Client × DbcEvent

/-- What the clients answer, from all the calls made so far. -/
abbrev Answers := List Call → Int32

/-- The GB32960 layer takes five characters, or leaves the field alone; the other clients
answer anything. -/
def clientAnswer (scan : Scan F) (answers : Answers) (calls : List Call) (c : Client)
    (sfx : Bytes) : Int32 :=
  match c with
  | .gb => if (scan.gbField sfx).isSome then 5 else 0
  | .other _ => answers calls

/-- An event for every client. -/
def notifyAll (clients : List Client) (evt : DbcEvent) (calls : List Call) : List Call :=
  calls ++ (clients.take dbcMaxCallback).map fun c => (c, evt)

/-! ### Suffixes -/

/-- What the loop over a suffix works on. -/
structure SfxState (F : Type) where
  sig : DbcSig F
  mc : Nat
  matchTbl : List (Option Nat)
  calls : List Call

/-- `dbc_match_tbl_set` -/
def dbcMatchTblSet (tbl : List (Option Nat)) (id : UInt32) (sig : Nat) :
    Option (List (Option Nat)) :=
  if id = 0 ∨ id.toNat > dbcMaxMatchid then none
  -- two signals may not declare one index
  else if (tbl.getD (id.toNat - 1) none).isSome then none
  else some (tbl.set (id.toNat - 1) (some sig))

def isDigit (c : UInt8) : Bool :=
  decide (0x30 ≤ c) && decide (c ≤ 0x39)

/-- A client is given the field at `sfx`. -/
def SfxState.ask (scan : Scan F) (id : Nat) (sfx : Bytes) (c : Client) (s : SfxState F) :
    SfxState F :=
  { s with
    calls := s.calls ++ [(c, .surfix id sfx)]
    sig := { s.sig with
      gbFields := s.sig.gbFields ++ if c = .gb then (scan.gbField sfx).toList else [] } }

/-- The clients' answers to one field: `ret` is the last answer, `lastret` the first one that
took the field. `false`: two clients took it with different lengths. -/
def askClients (scan : Scan F) (answers : Answers) (id : Nat) (sfx : Bytes) :
    List Client → Int32 → Int32 → SfxState F → Bool × Int32 × Int32 × SfxState F
  | [], ret, lastret, s => (true, ret, lastret, s)
  | c :: rest, _, lastret, s =>
    let s := s.ask scan id sfx c
    let ret := clientAnswer scan answers s.calls c sfx
    -- the first client that took it decides the length
    if lastret > 0 then
      if ret > 0 ∧ lastret ≠ ret then (false, ret, lastret, s)
      else askClients scan answers id sfx rest ret lastret s
    else askClients scan answers id sfx rest ret ret s

/-- One turn of the loop of `dbc_parse_sig_suffix` at `p`: where it goes on, unless it
breaks. `sig` is the signal's place. -/
def sfxStep (scan : Scan F) (clients : List Client) (answers : Answers) (sig : Nat) (p : Bytes)
    (s : SfxState F) : Option Bytes × SfxState F :=
  if p.headD 0 = 0x40 then  -- '@'
    match scan.sfxPort p with
    | none => (none, s)
    | some port =>
      if port = 0 ∨ port.toNat > canMaxPort then (none, s)
      else (some (p.drop 2), { s with sig := { s.sig with port := port - 1 } })
  else if p.headD 0 = 0x42 then  -- 'B'
    (some (p.drop 1), { s with sig := { s.sig with flags := s.sig.flags ||| 1 } })
  else if p.headD 0 = 0x4D then  -- 'M'
    -- at most four conditions
    if s.mc ≥ 4 then (none, s)
    else
      match scan.sfxMatch p with
      | none => (none, s)
      | some (mv, mi) =>
        if mi = 0 ∨ mi.toNat > dbcMaxMatchid then (none, s)
        else
          -- behind the value, at the `I` of its index
          let p := (p.drop 1).dropWhile (· ≠ 0x49)
          (some ((p.drop 1).dropWhile isDigit), { s with
            mc := s.mc + 1
            sig := { s.sig with mv := s.sig.mv.set s.mc mv, mi := s.sig.mi.set s.mc mi } })
  else if p.headD 0 = 0x49 then  -- 'I'
    match scan.sfxIndex p with
    | none => (none, s)
    | some midx =>
      match dbcMatchTblSet s.matchTbl midx sig with
      | none => (none, s)
      | some matchTbl =>
        (some ((p.drop 1).dropWhile isDigit),
          { s with matchTbl, sig := { s.sig with midx } })
  else
    let (agree, ret, lastret, s) :=
      askClients scan answers (sig + 1) p (clients.take dbcMaxCallback) 0 0 s
    if agree = false ∨ (ret > 0 ∧ lastret ≠ ret) then (none, s)
    -- nobody took it: the character is passed over
    else (some (p.drop (if ret > 0 then ret.toInt.toNat else 1)), s)

/-- The loop, until the zero or a break; every turn takes a character at least. -/
def sfxLoop (scan : Scan F) (clients : List Client) (answers : Answers) (sig : Nat) :
    Nat → Bytes → SfxState F → Bool × SfxState F
  | 0, p, s => (p.headD 0 = 0, s)
  | n + 1, p, s =>
    if p.headD 0 = 0 then (true, s)
    else
      match sfxStep scan clients answers sig p s with
      | (none, s) => (false, s)
      | (some p, s) => sfxLoop scan clients answers sig n p s

/-- `dbc_get_sig_suffix`: the name is cut at its last underscore, unless it begins there. -/
def dbcGetSigSuffix (name : Bytes) : Bytes × Option Bytes :=
  let sfx := (name.reverse.takeWhile (· ≠ 0x5F)).reverse
  if sfx.length + 1 < name.length then (name.take (name.length - sfx.length - 1), some sfx)
  else (name, none)

/-! ### Lines -/

/-- The variables of `dbc_load_file`. -/
structure Loading (F : Type) where
  dbc : DbcData F
  matchTbl : List (Option Nat)
  msg : Option Nat
  baud : List Int16
  calls : List Call

def dbcParseMsg (scan : Scan F) (line : Bytes) (l : Loading F) : Bool × Loading F :=
  match scan.getMsg line with
  | none => (false, l)
  | some (id, ecu) =>
    -- the high bit marks an extended identifier
    if id > 0x7ff ∧ id &&& 0x80000000 = 0 then (false, l)
    else
      match dbcFindMsg l.dbc id with
      -- a message again: the signals that follow go to the old one
      | some m =>
        let msglst := l.dbc.msglst.modify m fun msg => if msg.id = 0 then { msg with id, ecu } else msg
        (true, { l with msg := some m, dbc := { l.dbc with msglst } })
      | none =>
        if l.dbc.msglst.length < dbcMaxMessage then
          (true, { l with
            msg := some l.dbc.msglst.length
            dbc := { l.dbc with msglst := l.dbc.msglst ++ [⟨id, ecu, []⟩] } })
        else (false, l)

def dbcSigOverflow (order : UInt8) (start size : Int32) : Bool :=
  if size ≤ 0 ∨ size > 64 ∨ start < 0 ∨ start ≥ 64 then true
  else if order ≠ 0x30 ∧ order ≠ 0x31 then true
  else if order = 0x31 ∧ start + size > 64 then true
  -- the start bit of a Motorola signal is its highest one
  else if order = 0x30 ∧ (start >>> 3) * 16 + 7 - start + size > 64 then true
  else false

/-- The unit with its closing quotation mark. -/
def closeUnit (unit : Bytes) : Bytes :=
  if unit.getLast? ≠ some 0x22 then unit ++ [0x22] else unit

/-- `dbc_parse_sig_suffix` for the new signal; behind the suffix and its zero is `stack`. -/
def dbcParseSigSuffix (scan : Scan F) (clients : List Client) (answers : Answers) (sig : Nat)
    (sfx : Option Bytes) (stack : Bytes) (s : SfxState F) : Bool × SfxState F :=
  match sfx with
  | none => (true, s)
  | some sfx =>
    let p := sfx ++ 0 :: stack
    sfxLoop scan clients answers sig p.length p
      { s with sig := { s.sig with suffix := sfx.take (dbcSuffixLen - 1) } }

/-- `dbc_parse_sig` for a line of the message at place `m`. A signal that is refused stays in
the spare table; the load ends there. -/
def dbcParseSig (scan : Scan F) (clients : List Client) (answers : Answers) (line stack : Bytes)
    (m : Nat) (l : Loading F) : Bool × Loading F :=
  match scan.getSig line with
  | none => (false, l)
  | some fields =>
    if dbcSigOverflow fields.order fields.start fields.size then (false, l)
    else
      -- names are compared without their suffixes
      let (name, sfx) := dbcGetSigSuffix fields.name
      if (dbcFindSig l.dbc name).isSome then (false, l)
      else if l.dbc.siglst.length < dbcMaxSignal then
        let sig := l.dbc.siglst.length
        let (ok, s) := dbcParseSigSuffix scan clients answers sig sfx stack
          ⟨.cleared scan.zero, 0, l.matchTbl, l.calls⟩
        -- what the suffix has done to the match table stays
        let l := { l with matchTbl := s.matchTbl, calls := s.calls }
        if ok then
          let full := { s.sig with
            name := name
            unit := closeUnit fields.unit
            ecu := ((l.dbc.msglst[m]?).map DbcMsg.ecu).getD []
            order := fields.order
            sign := fields.sign
            start := fields.start
            size := fields.size
            factor := fields.factor
            offset := fields.offset
            min := fields.min
            max := fields.max
            init := scan.zero }
          let msglst := l.dbc.msglst.modify m fun msg => { msg with siglst := msg.siglst ++ [sig] }
          (true, { l with dbc := { l.dbc with msglst, siglst := l.dbc.siglst ++ [full] } })
        else (false, { l with dbc := { l.dbc with siglst := l.dbc.siglst ++ [s.sig] } })
      else (false, l)

def baudlst : List Int16 := [50, 100, 125, 250, 500, 1000]

/-- A baud rate of the old kind, if the line is one of them. -/
def oldBaudrate (scan : Scan F) (line : Bytes) : Option (Nat × UInt16) :=
  match (scan.hsBaudrate line).filter (· < 6) with
  | some tmp => some (0, tmp)
  | none =>
    match (scan.msBaudrate line).filter (· < 6) with
    | some tmp => some (1, tmp)
    | none => ((scan.lsBaudrate line).filter (· < 6)).map fun tmp => (2, tmp)

def dbcParseDef (scan : Scan F) (clients : List Client) (line : Bytes) (l : Loading F) :
    Loading F :=
  match oldBaudrate scan line with
  | some (port, tmp) => { l with baud := l.baud.set port (baudlst.getD tmp.toNat 0) }
  | none =>
    match (scan.baudrate line).filter fun (port, _) => port > 0 ∧ port.toNat ≤ canMaxPort with
    | some (port, tmp) => { l with baud := l.baud.set (port.toNat - 1) tmp.toInt16 }
    | none =>
      match scan.getDef line with
      | some (name, init) =>
        -- the initial value of a signal; for an unknown one nothing
        match dbcFindSig l.dbc name with
        | some k =>
          { l with dbc := { l.dbc with siglst := l.dbc.siglst.modify k ({ · with init }) } }
        | none => l
      -- anything else is for the clients
      | none => { l with calls := notifyAll clients (.define line) l.calls }

def keywordMsg : Bytes := [0x42, 0x4F, 0x5F]

def keywordSignal : Bytes := [0x53, 0x47, 0x5F]

def keywordBa : Bytes := [0x42, 0x41, 0x5F]

/-- A line of the file, and what lies behind a name read from it. -/
structure FileLine where
  text : Bytes
  stack : Bytes

/-- One turn of the loop over the lines; `false` leaves the loop with an error. -/
def lineStep (scan : Scan F) (clients : List Client) (answers : Answers) (first : Bool)
    (line : FileLine) (l : Loading F) : Bool × Loading F :=
  if first ∧ scan.version line.text = false then (false, l)
  else
    match scan.getKwd line.text with
    | none => (true, l)
    | some keywd =>
      if keywd = keywordMsg then dbcParseMsg scan line.text l
      else if keywd = keywordSignal then
        match l.msg with
        -- a signal before any message
        | none => (false, l)
        | some m => dbcParseSig scan clients answers line.text line.stack m l
      else if keywd = keywordBa then (true, dbcParseDef scan clients line.text l)
      else (true, l)

def lineLoop (scan : Scan F) (clients : List Client) (answers : Answers) :
    Bool → List FileLine → Loading F → Bool × Loading F
  | _, [], l => (true, l)
  | first, line :: rest, l =>
    match lineStep scan clients answers first line l with
    | (false, l) => (false, l)
    | (true, l) => lineLoop scan clients answers false rest l

/-! ### The whole file -/

/-- The match indices of one signal become signal ids. -/
def adjMatch (tbl : List (Option Nat)) : List UInt32 → Bool × List UInt32
  | [] => (true, [])
  | mi :: rest =>
    -- the conditions are filled from the front
    if mi = 0 then (true, mi :: rest)
    else
      match tbl.getD (mi.toNat - 1) none with
      -- an index that no signal declares
      | none => (false, mi :: rest)
      | some sig =>
        let (ok, rest) := adjMatch tbl rest
        (ok, UInt32.ofNat (sig + 1) :: rest)

/-- `dbc_match_tbl_adj` -/
def dbcMatchTblAdj (tbl : List (Option Nat)) : List (DbcSig F) → Bool × List (DbcSig F)
  | [] => (true, [])
  | sig :: rest =>
    let (ok, mi) := adjMatch tbl sig.mi
    if ok then
      let (ok, rest) := dbcMatchTblAdj tbl rest
      (ok, { sig with mi } :: rest)
    else (false, { sig with mi } :: rest)

/-- A file as the load finds it: whether it opens, its lines, whether they end with the file,
and whether its path can be saved. -/
structure DbcFile where
  fpath : Bytes
  opens : Bool
  lines : List FileLine
  atEof : Bool
  saved : Bool

/-- The variables at the start of the loop; the spare table keeps its old path and code. -/
def Loading.begin (spare : DbcData F) (baud : List Int16) (calls : List Call) : Loading F :=
  ⟨{ spare with msglst := [], siglst := [] }, List.replicate dbcMaxMatchid none, none, baud,
    calls⟩

/-- `dbc_load_file` between opening the file and `load_exit`. -/
def dbcRead (scan : Scan F) (clients : List Client) (answers : Answers) (file : DbcFile)
    (l : Loading F) : Int32 × Loading F :=
  let (ok, l) := lineLoop scan clients answers true file.lines l
  if ok = false then (-1, l)
  else if file.atEof = false then (-1, l)
  else
    let (ok, siglst) := dbcMatchTblAdj l.matchTbl l.dbc.siglst
    let l := { l with dbc := { l.dbc with siglst } }
    if ok = false then (-1, l)
    else if file.saved = false then (-1, l)
    else
      let dbc := dbcResetSignal l.dbc
      (0, { l with
        dbc := { dbc with
          fpath := file.fpath.take 255, md5 := scan.md5 (file.lines.map (·.text)) } })

end Can
