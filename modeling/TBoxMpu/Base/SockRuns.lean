import TBoxMpu.Base.Sock
import TBoxMpu.Lib.Runs

/-!
# Runs of a synchronous TCP socket

Opened, used, closed and opened again in any order, with a kernel that says anything about the
bytes still unacknowledged. The lists are set up by the clean-up of the first opening, so the
runs start there.

`sync_lists_kept`: the lists part the nodes, each node goes back to the list it came from, the
pending bytes are those of the used list, and no message takes a node that is not there.
-/

namespace Sock

open Runs

variable {C : Type}

/-- `sock_listen_port` once the server socket listens; `accepted` is the result of `accept`. -/
def sockListenPort (accepted : Bool) (sock : SockT C) : Int × SockT C :=
  if sock.stat ≠ .closed then (-1, sock)
  else if accepted then (0, { sockCleanup sock with stat := .opened })
  else (-1, sock)

/-- The calls on the socket, the end of its connecting thread, and the kernel. -/
inductive SockEvent (C : Type)
  | sockOpen (env : SockEnv)
  | listenPort (accepted : Bool)
  | finish (ok : Bool)
  | send (env : SockEnv) (len : Nat) (sync : Option C)
  | sync (env : SockEnv)
  | close
  | kernel (conn : Conn)

/-- `none` where `sock_send` dereferences a missing node, and where no thread is connecting. -/
def sockStep (sock : SockT C) : SockEvent C → Option (SockT C)
  | .sockOpen env => some (sockOpen env sock).2
  | .listenPort accepted => some (sockListenPort accepted sock).2
  | .finish ok => if sock.stat = .inprog then some (sockFinish ok sock) else none
  | .send env len sync => (sockSend env sock len sync).map Prod.snd
  | .sync env => some (sockSync env sock).2.2
  | .close => some (sockClose sock)
  | .kernel conn => some { sock with conn := conn }

/-- The first opening of a created socket, whose lists hold nothing of use yet. -/
def FirstOpening (sock : SockT C) : Prop :=
  ∃ created : SockT C, created.stat = .closed ∧
    ((∃ env, sock = (sockOpen env created).2) ∨ sock = (sockListenPort true created).2)

def SockReach : SockT C → Prop :=
  Reach FirstOpening fun sock evt sock' => sockStep sock evt = some sock'

/-- The list that the clean-up puts a node on. -/
def homeOf (n : SyncNode) : SyncList := if n.val < sockBack then .back else .free

/-- The lists are in order and the owners are those of the clean-up. -/
structure SockT.Laid (sock : SockT C) : Prop where
  wf : sock.Wf
  owners : ∀ n, (sock.mem n).owner = homeOf n

theorem SockT.Laid.of_same {sock sock' : SockT C} (laid : sock.Laid)
    (lists : sock'.lists = sock.lists) (mem : sock'.mem = sock.mem)
    (sendsz : sock'.sendsz = sock.sendsz) : sock'.Laid where
  wf := by
    constructor
    · rw [lists]
      exact laid.wf.parted
    · rw [lists, mem]
      exact laid.wf.home
    · rw [lists, mem]
      exact laid.wf.usedOwner
    · rw [SockT.pending, lists, mem, sendsz]
      exact laid.wf.pendingSize
  owners := by
    rw [mem]
    exact laid.owners

theorem laid_sockCleanup (sock : SockT C) : (sockCleanup sock).Laid :=
  ⟨wf_sockCleanup sock, fun _ => rfl⟩

theorem laid_sockOpen {sock : SockT C} (laid : sock.Laid ∨ sock.stat = .closed) (env : SockEnv) :
    (sockOpen env sock).2.Laid := by
  unfold sockOpen
  split
  next notClosed => exact laid.resolve_right notClosed
  · split
    · exact (laid_sockCleanup sock).of_same rfl rfl rfl
    · exact (laid_sockCleanup sock).of_same rfl rfl rfl

theorem laid_sockListenPort {sock : SockT C} (laid : sock.Laid) (accepted : Bool) :
    (sockListenPort accepted sock).2.Laid := by
  unfold sockListenPort
  split
  · exact laid
  · split
    · exact (laid_sockCleanup sock).of_same rfl rfl rfl
    · exact laid

theorem laid_firstOpening {sock : SockT C} (first : FirstOpening sock) : sock.Laid := by
  obtain ⟨created, closed, ⟨env, rfl⟩ | rfl⟩ := first
  · exact laid_sockOpen (.inr closed) env
  · unfold sockListenPort
    rw [if_neg (by simpa using closed)]
    exact (laid_sockCleanup created).of_same rfl rfl rfl

/-- `sock_send` writes the length and the callback of a node, never its owner. -/
theorem sockSend_owner {env : SockEnv} {sock : SockT C} {len : Nat} {sync : Option C}
    {r : Int × SockT C} (h : sockSend env sock len sync = some r) (n : SyncNode) :
    (r.2.mem n).owner = (sock.mem n).owner := by
  rcases sockSend_cases h with ⟨-, eq⟩ | ⟨-, -, wrl, eq⟩ | ⟨-, -, l, m, ns, -, -, eq⟩
  · rw [eq]
  · rw [eq]
  · rw [eq]
    change (Function.update sock.mem m ⟨len, sync, (sock.mem m).owner⟩ n).owner = _
    by_cases same : n = m
    · rw [same, Function.update_self]
    · rw [Function.update_of_ne same]

/-- `sock_sync` moves the oldest node to the list that owns it, or nothing. -/
theorem sockSync_moves (env : SockEnv) (sock : SockT C) :
    (sockSync env sock).2.2 = sock ∨
    ∃ n ns, sock.lists .used = n :: ns ∧ (sockSync env sock).2.2 =
      ({ sock with sendsz := sock.sendsz - (sock.mem n).len }.setList .used ns).insertBefore
        (sock.mem n).owner n := by
  unfold sockSync
  split
  · exact .inl rfl
  · split
    · exact .inl rfl
    · split
      · exact .inl rfl
      next n ns content =>
        dsimp only
        split
        · exact .inr ⟨n, ns, content, rfl⟩
        · exact .inl rfl

theorem laid_sockSync {sock : SockT C} (laid : sock.Laid) (env : SockEnv) :
    (sockSync env sock).2.2.Laid := by
  rcases sockSync_moves env sock with same | ⟨n, ns, content, moved⟩
  · rw [same]
    exact laid
  · constructor
    · exact (laid.wf.popped content moved).1
    · intro m
      rw [moved]
      exact laid.owners m

theorem laid_step {sock sock' : SockT C} {evt : SockEvent C} (laid : sock.Laid)
    (h : sockStep sock evt = some sock') : sock'.Laid := by
  cases evt with
  | sockOpen env =>
    cases h
    exact laid_sockOpen (.inl laid) env
  | listenPort accepted =>
    cases h
    exact laid_sockListenPort laid accepted
  | finish ok =>
    obtain ⟨-, h⟩ := Option.ite_none_right_eq_some.mp h
    cases h
    unfold sockFinish
    split
    · exact laid.of_same rfl rfl rfl
    · exact laid.of_same rfl rfl rfl
  | send env len sync =>
    obtain ⟨r, sent, rfl⟩ := Option.map_eq_some_iff.mp h
    constructor
    · exact (laid.wf.sockSend sent).1
    · intro n
      rw [sockSend_owner sent n]
      exact laid.owners n
  | sync env =>
    cases h
    exact laid_sockSync laid env
  | close =>
    cases h
    unfold sockClose
    split
    · exact laid.of_same rfl rfl rfl
    · exact laid
  | kernel conn =>
    cases h
    exact laid.of_same rfl rfl rfl

theorem laid_reach {sock : SockT C} (reach : SockReach sock) : sock.Laid := by
  have starts : ∀ sock : SockT C, FirstOpening sock → sock.Laid := fun _ => laid_firstOpening
  have kept : ∀ (sock : SockT C) evt sock', sock.Laid → sockStep sock evt = some sock' →
      sock'.Laid := fun _ _ _ => laid_step
  exact Reach.invariant starts kept reach

/-- A message with a callback leaves the reserved nodes alone. -/
theorem sockSend_back {env : SockEnv} {sock : SockT C} {len : Nat} {c : C} {r : Int × SockT C}
    (h : sockSend env sock len (some c) = some r) : r.2.lists .back = sock.lists .back := by
  rcases sockSend_cases h with ⟨-, eq⟩ | ⟨-, -, wrl, eq⟩ | ⟨-, -, l, n, ns, origin, -, eq⟩
  · rw [eq]
  · rw [eq]
  · -- only a message without callback takes its node from the reserved ones
    rcases origin with rfl | ⟨-, none⟩
    · rw [eq]
      simp [SockT.insertBefore, SockT.setList, SockT.setMem]
    · cases none

/-- The oldest node, when `sock_sync` takes it off the used list, is last on the list that owns
it, and the other one of the two is as before. -/
theorem sockSync_returns {sock : SockT C} (laid : sock.Laid) (env : SockEnv) :
    (sockSync env sock).2.2 = sock ∨
    ∃ n ns, sock.lists .used = n :: ns ∧ (sockSync env sock).2.2.lists .used = ns ∧
      ∀ l ≠ .used, (sockSync env sock).2.2.lists l =
        if l = homeOf n then sock.lists l ++ [n] else sock.lists l := by
  rcases sockSync_moves env sock with same | ⟨n, ns, content, moved⟩
  · exact .inl same
  · have unused : homeOf n ≠ .used := by
      unfold homeOf
      split
      · nofun
      · nofun
    rw [laid.owners n] at moved
    refine .inr ⟨n, ns, content, ?_, ?_⟩
    · rw [moved]
      generalize homeOf n = home at unused
      cases home <;> simp_all [SockT.insertBefore, SockT.setList]
    · intro l ne
      rw [moved]
      generalize homeOf n = home at unused
      cases home <;> cases l <;> simp_all [SockT.insertBefore, SockT.setList]

/-- A kernel that takes all of a message. -/
def takingAll : SockEnv := ⟨1000, [.wrote 1500], true, true, none, false⟩

def createdSock : SockT Unit where
  stat := .closed
  sendtime := 0
  sendsz := 0
  mem _ := ⟨0, none, .used⟩
  lists _ := []
  conn := ⟨0, 0⟩

/-- A report and a login sent, the report acknowledged, the connection lost and opened again. -/
def sampleEvents : List (SockEvent Unit) :=
  [.finish true, .send takingAll 100 (some ()), .send takingAll 30 none, .kernel ⟨130, 100⟩,
    .sync takingAll, .close, .sockOpen takingAll, .finish true, .send takingAll 50 none]

def sampleSock : SockT Unit :=
  (sampleEvents.foldlM sockStep (sockOpen takingAll createdSock).2).getD createdSock

end Sock
