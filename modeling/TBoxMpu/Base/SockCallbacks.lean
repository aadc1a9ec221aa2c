import Mathlib.Data.List.Perm.Subperm
import TBoxMpu.Base.SockRuns

/-!
# Messages that wait with a callback

A message with a callback never takes a reserved node, so no more of them wait for their
acknowledgement than there are other nodes (`SockT.Reserved.callbacks_le`).
-/

namespace Sock

variable {C : Type} {env : SockEnv} {sock : SockT C}

/-- The pending messages with a callback. -/
def SockT.callbacks (sock : SockT C) : Nat := sock.pending.countP fun sync => sync.sync.isSome

/-- The lists are in order, and the reserved nodes wait without callback. -/
structure SockT.Reserved (sock : SockT C) : Prop where
  laid : sock.Laid
  apart : ∀ sync ∈ sock.pending, sync.sync.isSome → sync.owner = .free

theorem SockT.Reserved.of_same {sock' : SockT C} (reserved : sock.Reserved)
    (lists : sock'.lists = sock.lists) (mem : sock'.mem = sock.mem)
    (sendsz : sock'.sendsz = sock.sendsz) :
    sock'.Reserved ∧ sock'.callbacks = sock.callbacks := by
  have pending : sock'.pending = sock.pending := by
    unfold SockT.pending
    rw [lists, mem]
  constructor
  · refine ⟨reserved.laid.of_same lists mem sendsz, ?_⟩
    rw [pending]
    exact reserved.apart
  · unfold SockT.callbacks
    rw [pending]

theorem reserved_sockCleanup (sock : SockT C) : (sockCleanup sock).Reserved :=
  ⟨laid_sockCleanup sock, nofun⟩

theorem nodup_used (wf : sock.Wf) : (sock.lists .used).Nodup := by
  refine List.nodup_iff_count_le_one.mpr fun n => ?_
  have once := wf.parted n
  omega

/-- The nodes that are not reserved. -/
def sockOthers : List SyncNode := (List.finRange sockMaxSync).filter fun n => sockBack ≤ n.val

theorem SockT.Reserved.callbacks_le (reserved : sock.Reserved) :
    sock.callbacks ≤ sockMaxSync - sockBack := by
  -- the waiting messages lie in nodes of their own
  have waiting : sock.callbacks =
      ((sock.lists .used).filter fun n => (sock.mem n).sync.isSome).length := by
    unfold SockT.callbacks SockT.pending
    rw [List.countP_map, List.countP_eq_length_filter]
    rfl
  -- none of these nodes is a reserved one
  have others : ((sock.lists .used).filter fun n => (sock.mem n).sync.isSome) ⊆ sockOthers := by
    intro n mem
    obtain ⟨used, some⟩ := List.mem_filter.mp mem
    have owner : (sock.mem n).owner = .free :=
      reserved.apart (sock.mem n) (List.mem_map_of_mem used) some
    rw [reserved.laid.owners n] at owner
    refine List.mem_filter.mpr ⟨List.mem_finRange n, ?_⟩
    by_contra small
    unfold homeOf at owner
    rw [if_pos (by simpa using small)] at owner
    cases owner
  have nodup := (nodup_used reserved.laid.wf).filter fun n => (sock.mem n).sync.isSome
  have bound := (List.subperm_of_subset nodup others).length_le
  rw [waiting]
  calc _ ≤ sockOthers.length := bound
    _ = sockMaxSync - sockBack := by decide

/-- A message that `sock_send` queues with a callback is one more that waits. -/
theorem SockT.Reserved.sockSend (reserved : sock.Reserved) {len : Nat} {sync : Option C}
    {r : Int × SockT C} (h : sockSend env sock len sync = some r) :
    r.2.Reserved ∧ sock.callbacks ≤ r.2.callbacks ∧
    (0 < r.1 → sync.isSome → sock.callbacks + 1 ≤ r.2.callbacks) := by
  have laid : r.2.Laid := by
    have step : sockStep sock (.send env len sync) = some r.2 := by
      change (Sock.sockSend env sock len sync).map Prod.snd = some r.2
      rw [h]
      rfl
    exact laid_step reserved.laid step
  rcases sockSend_cases h with ⟨refused, same⟩ | ⟨failed, -, wrl, same⟩ |
    ⟨-, -, l, n, ns, origin, content, queued⟩
  · rw [same]
    exact ⟨reserved, le_rfl, fun taken => absurd refused (by omega)⟩
  · have kept : r.2.Reserved ∧ r.2.callbacks = sock.callbacks :=
      reserved.of_same (by rw [same]) (by rw [same]) (by rw [same])
    exact ⟨kept.1, kept.2.ge, fun taken => absurd failed (by omega)⟩
  · -- queued: with a callback, the node is not a reserved one
    have source : l = .free ∨ l = .back := origin.imp_right And.left
    have unused : l ≠ .used := by rcases source with rfl | rfl <;> nofun
    have owner := reserved.laid.wf.home l unused n (by simp [content])
    have pending : r.2.pending = sock.pending ++ [⟨len, sync, l⟩] := by
      have appended := (reserved.laid.wf.queued len sync source content r.2
        (fun k => by rw [queued, queued_lists unused k]) (by rw [queued]; rfl)
        (by rw [queued]; rfl)).2
      rwa [owner] at appended
    have count : r.2.callbacks = sock.callbacks + [SyncT.mk len sync l].countP
        (fun sync => sync.sync.isSome) := by
      unfold SockT.callbacks
      rw [pending, List.countP_append]
    refine ⟨⟨laid, ?_⟩, by omega, ?_⟩
    · intro waiting mem some
      rw [pending] at mem
      rcases List.mem_append.mp mem with old | new
      · exact reserved.apart waiting old some
      · rw [List.mem_singleton.mp new] at some ⊢
        rcases origin with free | ⟨-, none⟩
        · exact free
        · rw [none] at some
          cases some
    · intro _ some
      rw [count]
      simp [some]

/-- `sock_sync` takes at most the message away whose callback it runs. -/
theorem SockT.Reserved.sockSync (reserved : sock.Reserved) (env : SockEnv) :
    let r := Sock.sockSync env sock
    r.2.2.Reserved ∧ sock.callbacks ≤ r.2.2.callbacks + (if r.2.1.isSome then 1 else 0) := by
  dsimp only
  have laid := laid_sockSync reserved.laid env
  have synced := reserved.laid.wf.sockSync (rfl : Sock.sockSync env sock = _)
  rcases synced with ⟨-, same⟩ |
    ⟨-, sync, rest, pending, -, -, callback, -, -, -, after⟩
  · rw [same]
    exact ⟨reserved, by omega⟩
  · refine ⟨⟨laid, ?_⟩, ?_⟩
    · intro waiting mem
      rw [after] at mem
      exact reserved.apart waiting (by simp [pending, mem])
    · unfold SockT.callbacks
      rw [pending, after, callback, List.countP_cons]

end Sock
