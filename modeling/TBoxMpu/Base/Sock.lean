import Mathlib.Algebra.BigOperators.Group.List.Basic
import Mathlib.Data.List.FinRange
import Mathlib.Data.List.Perm.Basic
import Mathlib.Logic.Function.Basic
import Mathlib.Tactic.Linarith

/-!
# Synchronous TCP sockets

`sock.c` for a socket of the type `SOCK_TYPE_SYNCTCP`: every message sent takes a node of
`sync_mem`, kept on the used list until the peer has acknowledged its bytes; then
`sock_sync` runs the callback the message was sent with. The connection behind the
descriptor is part of the state: the bytes handed to the kernel and those acknowledged.
-/

namespace Sock

def sockMaxSync : Nat := 40

def sockAckTimeout : Nat := 15000

inductive SockStat
  | unused | closed | opened | inprog
  deriving DecidableEq, Repr

/-- The list heads `sync_free`, `sync_back` and `sync_used`. -/
inductive SyncList
  | free | back | used
  deriving DecidableEq, Repr

abbrev SyncNode := Fin sockMaxSync

/-- `sync_t` without its link; `C` is the type of callbacks. -/
structure SyncT (C : Type) where
  len : Nat
  sync : Option C
  owner : SyncList

/-- What the kernel knows of the connection; `SIOCOUTQ` is the difference. -/
structure Conn where
  sent : Nat
  acked : Nat

structure SockT (C : Type) where
  stat : SockStat
  sendtime : Nat
  sendsz : Int
  mem : SyncNode → SyncT C
  lists : SyncList → List SyncNode
  conn : Conn

/-- The result of one `send` call; `wrote` is a positive result. -/
inductive SendRes
  | wrote (n : Nat)
  | again
  | error
  deriving DecidableEq, Repr

/-- What the system answers during one call: the clock, the results of `send` until the
time-out, whether `SIOCOUTQ` and `pthread_create` work, `SO_SNDBUF` and `SO_ERROR`. -/
structure SockEnv where
  now : Nat
  results : List SendRes
  outq : Bool
  started : Bool
  sndbuf : Option Int32
  error : Bool

variable {C : Type}

namespace SockT

def setList (sock : SockT C) (l : SyncList) (ns : List SyncNode) : SockT C :=
  { sock with lists := Function.update sock.lists l ns }

def insertBefore (sock : SockT C) (l : SyncList) (n : SyncNode) : SockT C :=
  sock.setList l (sock.lists l ++ [n])

def getFirst (sock : SockT C) (l : SyncList) : Option (SyncNode × SockT C) :=
  match sock.lists l with
  | [] => none
  | n :: ns => some (n, sock.setList l ns)

def setMem (sock : SockT C) (n : SyncNode) (sync : SyncT C) : SockT C :=
  { sock with mem := Function.update sock.mem n sync }

end SockT

/-! ### Sending -/

/-- The loop of `sock_send`: how many of the `len` bytes the kernel has taken. -/
def sendLoop (len wrl : Nat) : List SendRes → Nat
  | [] => wrl
  | res :: rest =>
    if len ≤ wrl then wrl
    else match res with
      | .wrote n => sendLoop len (wrl + min n (len - wrl)) rest
      -- `EAGAIN` and `EINTR`: tried again until the time-out
      | .again => sendLoop len wrl rest
      | .error => wrl

/-- A message without callback may use a reserved node. -/
def takeNode (sock : SockT C) (sync : Option C) : Option (SyncNode × SockT C) :=
  (if sync.isSome then none else sock.getFirst .back).or (sock.getFirst .free)

/-- `sock_send` for a message of `len` bytes; `none` if it dereferences a missing node. -/
def sockSend (env : SockEnv) (sock : SockT C) (len : Nat) (sync : Option C) :
    Option (Int × SockT C) :=
  if sock.stat ≠ .opened then some (-1, sock)
  else if sock.lists .free = [] ∧ (sync.isSome ∨ sock.lists .back = []) then
    -- no node left: the peer has stopped to acknowledge, or is only late
    some (if env.now - sock.sendtime > sockAckTimeout then -1 else 0, sock)
  else
    let wrl := sendLoop len 0 env.results
    let sock := { sock with conn := { sock.conn with sent := sock.conn.sent + wrl } }
    -- the bytes are out, but no node counts them
    if wrl ≠ len then some (-1, sock)
    else (takeNode sock sync).map fun (node, sock) =>
      let sock := { sock with sendsz := sock.sendsz + len, sendtime := env.now }
      (len, (sock.setMem node ⟨len, sync, (sock.mem node).owner⟩).insertBefore .used node)

/-! ### Acknowledgements -/

/-- `SIOCOUTQ`. -/
def Conn.unacksz (conn : Conn) : Int := conn.sent - conn.acked

/-- `sock_sync` with the callback it runs. -/
def sockSync (env : SockEnv) (sock : SockT C) : Int × Option C × SockT C :=
  if sock.stat ≠ .opened then (-1, none, sock)
  else if !env.outq then (-1, none, sock)
  else match sock.lists .used with
    | [] => (0, none, sock)
    | node :: rest =>
      let sync := sock.mem node
      -- every byte before the end of the oldest message is acknowledged
      if sync.len ≤ sock.sendsz - sock.conn.unacksz then
        let sock := { sock with sendsz := sock.sendsz - sync.len }
        (0, sync.sync, (sock.setList .used rest).insertBefore sync.owner node)
      else (0, none, sock)

def sockBufsz (env : SockEnv) (sock : SockT C) : Int32 :=
  if sock.stat ≠ .opened then -1
  else match env.sndbuf with
    | none => -1
    | some buffsz =>
      -- the difference is an `int`, negative when more is unacknowledged than fits
      if !env.outq then -1 else buffsz - Int32.ofInt sock.conn.unacksz

/-! ### Opening and closing -/

def sockBack : Nat := sockMaxSync / 10

/-- `sock_cleanup`: the first nodes are the reserved ones. -/
def sockCleanup (sock : SockT C) : SockT C where
  stat := sock.stat
  sendtime := sock.sendtime
  sendsz := 0
  mem n := { sock.mem n with owner := if n.val < sockBack then .back else .free }
  lists
    | .free => (List.finRange sockMaxSync).drop sockBack
    | .back => (List.finRange sockMaxSync).take sockBack
    | .used => []
  conn := sock.conn

def sockOpen (env : SockEnv) (sock : SockT C) : Int × SockT C :=
  -- an open socket, or one that is being opened, is left alone
  if sock.stat ≠ .closed then (-1, sock)
  else if env.started then (0, { sockCleanup sock with stat := .inprog })
  else (-1, { sockCleanup sock with stat := .closed })

/-- `sock_finish` of the connecting thread; `ok` has a new descriptor. -/
def sockFinish (ok : Bool) (sock : SockT C) : SockT C :=
  if ok then { sock with stat := .opened, sendtime := 0, conn := ⟨0, 0⟩ }
  else { sock with stat := .closed }

def sockClose (sock : SockT C) : SockT C :=
  if sock.stat = .opened then { sock with stat := .closed } else sock

/-! ### The state of an open socket -/

/-- The messages waiting for their acknowledgement, oldest first. -/
def SockT.pending (sock : SockT C) : List (SyncT C) := (sock.lists .used).map sock.mem

/-- The three lists part the nodes, each node off the used list is with its owner, and the
pending bytes are counted. -/
structure SockT.Wf (sock : SockT C) : Prop where
  parted : ∀ n, (sock.lists .free).count n + (sock.lists .back).count n +
    (sock.lists .used).count n = 1
  home : ∀ l ≠ .used, ∀ n ∈ sock.lists l, (sock.mem n).owner = l
  usedOwner : ∀ n ∈ sock.lists .used, (sock.mem n).owner ≠ .used
  pendingSize : sock.sendsz = ((sock.pending.map SyncT.len).sum : Nat)

section Wf

variable {env : SockEnv} {sock : SockT C}

/-- A message with a callback takes a free node; one without may take a reserved one. -/
theorem takeNode_some {sync : Option C} {n : SyncNode} {sock' : SockT C}
    (h : takeNode sock sync = some (n, sock')) :
    ∃ l ns, (l = .free ∨ l = .back ∧ sync = none) ∧ sock.lists l = n :: ns ∧
      sock' = sock.setList l ns := by
  unfold takeNode SockT.getFirst at h
  rcases Option.or_eq_some_iff.mp h with back | ⟨-, free⟩
  · rw [Option.ite_none_left_eq_some] at back
    obtain ⟨noSync, back⟩ := back
    split at back
    · cases back
    next m ns content =>
      cases back
      exact ⟨.back, ns, .inr ⟨rfl, by simpa using noSync⟩, content, rfl⟩
  · split at free
    · cases free
    next m ns content =>
      cases free
      exact ⟨.free, ns, .inl rfl, content, rfl⟩

theorem takeNode_none {sync : Option C} (h : takeNode sock sync = none) :
    sock.lists .free = [] ∧ (sync.isSome ∨ sock.lists .back = []) := by
  unfold takeNode SockT.getFirst at h
  obtain ⟨back, free⟩ := Option.or_eq_none_iff.mp h
  constructor
  · split at free
    next empty => exact empty
    · cases free
  · by_cases some : sync.isSome
    · exact .inl some
    · rw [if_neg some] at back
      split at back
      next empty => exact .inr empty
      · cases back

/-- No node is missing when `sock_send` needs one. -/
theorem sockSend_isSome (env : SockEnv) (sock : SockT C) (len : Nat) (sync : Option C) :
    (sockSend env sock len sync).isSome := by
  unfold sockSend
  split
  · rfl
  split
  · rfl
  next available =>
    dsimp only
    split
    · rfl
    · rw [Option.isSome_map, Option.isSome_iff_ne_none]
      intro missing
      have empty := takeNode_none missing
      exact available empty

/-- The exits of `sock_send`: nothing done, a message cut short, or a message queued. -/
theorem sockSend_cases {len : Nat} {sync : Option C} {r : Int × SockT C}
    (h : sockSend env sock len sync = some r) :
    (r.1 ≤ 0 ∧ r.2 = sock) ∨
    (r.1 < 0 ∧ sock.stat = .opened ∧ ∃ wrl, r.2 =
      { sock with conn := { sock.conn with sent := sock.conn.sent + wrl } }) ∨
    (r.1 = len ∧ sock.stat = .opened ∧ ∃ l n ns,
      (l = .free ∨ l = .back ∧ sync = none) ∧ sock.lists l = n :: ns ∧
      r.2 = (({ sock with
          conn := { sock.conn with sent := sock.conn.sent + len }
          sendsz := sock.sendsz + len
          sendtime := env.now }.setList l ns).setMem n
            ⟨len, sync, (sock.mem n).owner⟩).insertBefore .used n) := by
  unfold sockSend at h
  split at h
  · obtain rfl := Option.some.inj h
    exact .inl ⟨(by decide : (-1 : Int) ≤ 0), rfl⟩
  next opened =>
    split at h
    · obtain rfl := Option.some.inj h
      refine .inl ⟨?_, rfl⟩
      dsimp only
      split <;> decide
    · dsimp only at h
      simp only [ne_eq, Decidable.not_not] at opened
      split at h
      · obtain rfl := Option.some.inj h
        exact .inr (.inl ⟨(by decide : (-1 : Int) < 0), opened, _, rfl⟩)
      next all =>
        obtain ⟨⟨n, sock'⟩, taken, rfl⟩ := Option.map_eq_some_iff.mp h
        obtain ⟨l, ns, origin, content, rfl⟩ := takeNode_some taken
        simp only [Decidable.not_not] at all
        refine .inr (.inr ⟨rfl, opened, l, n, ns, origin, content, ?_⟩)
        rw [all]
        rfl

theorem wf_sockCleanup (sock : SockT C) : (sockCleanup sock).Wf where
  parted n := by
    have all : (List.finRange sockMaxSync).count n = 1 :=
      List.count_eq_one_of_mem (List.nodup_finRange _) (List.mem_finRange n)
    rw [← List.take_append_drop sockBack (List.finRange sockMaxSync), List.count_append] at all
    simp only [sockCleanup, List.count_nil]
    omega
  home l unused := by
    cases l with
    | free => simp only [sockCleanup]; decide
    | back => simp only [sockCleanup]; decide
    | used => contradiction
  usedOwner n mem := by simp [sockCleanup] at mem
  pendingSize := rfl

private theorem pending_of_notMem {sock : SockT C} {n : SyncNode} {sync : SyncT C}
    {ns : List SyncNode} (fresh : n ∉ ns) :
    ns.map (Function.update sock.mem n sync) = ns.map sock.mem := by
  refine List.map_congr_left fun m mem => ?_
  rw [Function.update_of_ne]
  rintro rfl
  exact fresh mem

/-- Where the lists of a queued message come from. -/
theorem queued_lists {sock : SockT C} {l : SyncList} {n : SyncNode}
    {ns : List SyncNode} {sync : SyncT C} (unused : l ≠ .used) (k : SyncList) :
    (((sock.setList l ns).setMem n sync).insertBefore .used n).lists k =
      if k = .used then sock.lists .used ++ [n] else if k = l then ns else sock.lists k := by
  cases l <;> cases k <;> simp_all [SockT.insertBefore, SockT.setList, SockT.setMem]

/-- A message queued by `sock_send` is the last one pending. -/
theorem SockT.Wf.queued (wf : sock.Wf) {l : SyncList} {n : SyncNode} {ns : List SyncNode}
    (len : Nat) (sync : Option C) (origin : l = .free ∨ l = .back)
    (content : sock.lists l = n :: ns) (sock' : SockT C)
    (lists : ∀ k, sock'.lists k =
      if k = .used then sock.lists .used ++ [n] else if k = l then ns else sock.lists k)
    (mem : sock'.mem = Function.update sock.mem n ⟨len, sync, (sock.mem n).owner⟩)
    (sendsz : sock'.sendsz = sock.sendsz + len) :
    sock'.Wf ∧ sock'.pending = sock.pending ++ [⟨len, sync, (sock.mem n).owner⟩] := by
  have unused : l ≠ .used := by rcases origin with rfl | rfl <;> nofun
  have owner : (sock.mem n).owner = l := wf.home l unused n (by simp [content])
  have counts : ∀ m, (sock.lists l).count m = ns.count m + (n :: []).count m := by
    intro m
    simp [content, List.count_cons]
  have parted : ∀ m, (sock'.lists .free).count m + (sock'.lists .back).count m +
      (sock'.lists .used).count m = 1 := by
    intro m
    have once := wf.parted m
    have count := counts m
    rcases origin with rfl | rfl <;> simp [lists, List.count_append] <;> omega
  have once := parted n
  have last : 1 ≤ (sock'.lists .used).count n := List.count_pos_iff.mpr (by simp [lists])
  have off : ∀ k ≠ .used, n ∉ sock'.lists k := by
    intro k ne
    refine List.count_eq_zero.mp ?_
    cases k <;> first | omega | contradiction
  -- the node was on the list it is taken from, and on no other
  have fresh : n ∉ sock.lists .used := by
    have old := wf.parted n
    have taken := counts n
    rw [List.count_cons_self] at taken
    refine List.count_eq_zero.mp ?_
    rcases origin with rfl | rfl <;> omega
  have pending : sock'.pending = sock.pending ++ [⟨len, sync, (sock.mem n).owner⟩] := by
    simp [SockT.pending, lists, mem, pending_of_notMem fresh]
  have unchanged : ∀ m ≠ n, sock'.mem m = sock.mem m := by
    intro m ne
    rw [mem, Function.update_of_ne ne]
  have self : (sock'.mem n).owner = l := by rw [mem, Function.update_self]; exact owner
  refine ⟨⟨parted, ?_, ?_, ?_⟩, pending⟩
  · intro k ne m hm
    have moved : m ≠ n := fun eq => off k ne (eq ▸ hm)
    rw [unchanged m moved]
    refine wf.home k ne m ?_
    rw [lists, if_neg ne] at hm
    split at hm
    next same => simp [same, content, hm]
    next => exact hm
  · intro m hm
    by_cases same : m = n
    · rw [same, self]
      exact unused
    · rw [unchanged m same]
      refine wf.usedOwner m ?_
      simpa [lists, same] using hm
  · rw [pending, sendsz, wf.pendingSize]
    simp

/-- `sock_sync` takes the oldest pending message away. -/
theorem SockT.Wf.popped (wf : sock.Wf) {n : SyncNode} {ns : List SyncNode}
    (content : sock.lists .used = n :: ns) {sock' : SockT C}
    (eq : sock' = ({ sock with
      sendsz := sock.sendsz - (sock.mem n).len }.setList .used ns).insertBefore
        (sock.mem n).owner n) :
    sock'.Wf ∧ sock.pending = sock.mem n :: sock'.pending := by
  have unused := wf.usedOwner n (by simp [content])
  have lists : ∀ k, sock'.lists k = if k = .used then ns else
      if k = (sock.mem n).owner then sock.lists k ++ [n] else sock.lists k := by
    intro k
    rw [eq]
    generalize (sock.mem n).owner = l at unused
    cases l <;> cases k <;> simp_all [SockT.insertBefore, SockT.setList]
  have mem : sock'.mem = sock.mem := by rw [eq]; rfl
  have pending : sock.pending = sock.mem n :: sock'.pending := by
    simp [SockT.pending, lists, mem, content]
  refine ⟨⟨?_, ?_, ?_, ?_⟩, pending⟩
  · intro m
    have once := wf.parted m
    rw [content, List.count_cons] at once
    -- the node goes from the used list to its owner's
    generalize (sock.mem n).owner = l at unused lists
    cases l <;> simp_all [List.count_append, List.count_cons] <;> omega
  · intro k ne m hm
    rw [mem]
    rw [lists, if_neg ne] at hm
    split at hm
    next owner =>
      rcases List.mem_append.mp hm with old | new
      · exact wf.home k ne m old
      · rw [List.mem_singleton.mp new, owner]
    next => exact wf.home k ne m hm
  · intro m hm
    rw [mem]
    refine wf.usedOwner m ?_
    have old : m ∈ ns := by simpa [lists] using hm
    simp [content, old]
  · have size := wf.pendingSize
    rw [pending] at size
    have sendsz : sock'.sendsz = sock.sendsz - (sock.mem n).len := by rw [eq]; rfl
    rw [sendsz, size]
    simp

/-- What `sock_send` does to a socket in order: refused, cut short, or queued. -/
theorem SockT.Wf.sockSend (wf : sock.Wf) {len : Nat} {sync : Option C} {r : Int × SockT C}
    (h : sockSend env sock len sync = some r) :
    r.2.Wf ∧ r.2.stat = sock.stat ∧ r.2.conn.acked = sock.conn.acked ∧
    ((r.1 ≤ 0 ∧ r.2 = sock) ∨ (r.1 < 0 ∧ sock.stat = .opened) ∨
      (r.1 = len ∧ sock.stat = .opened ∧ r.2.conn.sent = sock.conn.sent + len ∧
        ∃ owner, r.2.pending = sock.pending ++ [⟨len, sync, owner⟩])) := by
  rcases sockSend_cases h with ⟨res, eq⟩ | ⟨res, opened, wrl, eq⟩ |
    ⟨res, opened, l, n, ns, origin, content, eq⟩
  · rw [eq]
    exact ⟨wf, rfl, rfl, .inl ⟨res, rfl⟩⟩
  · rw [eq]
    exact ⟨⟨wf.parted, wf.home, wf.usedOwner, wf.pendingSize⟩, rfl, rfl,
      .inr (.inl ⟨res, opened⟩)⟩
  · have origin : l = .free ∨ l = .back := origin.imp_right And.left
    have unused : l ≠ .used := by rcases origin with rfl | rfl <;> nofun
    obtain ⟨wf', pending⟩ := wf.queued len sync origin content r.2
      (fun k => by rw [eq, queued_lists unused k]) (by rw [eq]; rfl) (by rw [eq]; rfl)
    exact ⟨wf', by rw [eq]; rfl, by rw [eq]; rfl,
      .inr (.inr ⟨res, opened, by rw [eq]; rfl, _, pending⟩)⟩

/-- What `sock_sync` does: nothing, or the oldest pending message has all its bytes
acknowledged and is taken away with its callback. -/
theorem SockT.Wf.sockSync (wf : sock.Wf) {r : Int × Option C × SockT C}
    (h : sockSync env sock = r) :
    (r.2.1 = none ∧ r.2.2 = sock) ∨
    (sock.stat = .opened ∧ ∃ sync rest, sock.pending = sync :: rest ∧
      sync.len ≤ sock.sendsz - sock.conn.unacksz ∧ r.1 = 0 ∧ r.2.1 = sync.sync ∧ r.2.2.Wf ∧
      r.2.2.stat = .opened ∧ r.2.2.conn = sock.conn ∧ r.2.2.pending = rest) := by
  unfold Sock.sockSync at h
  split at h
  · subst h; exact .inl ⟨rfl, rfl⟩
  next opened =>
    split at h
    · subst h; exact .inl ⟨rfl, rfl⟩
    · split at h
      · subst h; exact .inl ⟨rfl, rfl⟩
      next n ns content =>
        dsimp only at h
        split at h
        next acked =>
          simp only [ne_eq, Decidable.not_not] at opened
          obtain ⟨wf', pending⟩ := wf.popped content rfl
          subst h
          exact .inr ⟨opened, _, _, pending, acked, rfl, rfl, wf', opened, rfl, rfl⟩
        · subst h; exact .inl ⟨rfl, rfl⟩

end Wf

end Sock
