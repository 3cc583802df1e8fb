import BallyDongle.SerialMux.Tick

/-!
# Frames of the dongle's own

A reply takes a sequence number and goes to a queue. `Queued m m'` says that `m'`
is `m` after some replies: only the sequence and the queues moved, and the
counters of the manifest cache.
-/

namespace BallyDongle.SerialMux.Mux

open Btp SerialSession BtpTransport BtpCommand

variable {P : Platform} {m m' m'' : Mux P}

/-- The session after one sequence number was taken. -/
def reserve (session : Session P.node) : Session P.node :=
  { session with node := (P.node.reserveSequence session.node).1 }

structure Queued (m m' : Mux P) : Prop where
  session : ∃ taken, m'.session = reserve^[taken] m.session
  rest : m' = { m with
    session := m'.session, egress := m'.egress
    shared := { m.shared with manifest := m'.shared.manifest } }

theorem Queued.refl (m : Mux P) : Queued m m := ⟨⟨0, rfl⟩, rfl⟩

theorem Queued.trans (h : Queued m m') (h' : Queued m' m'') : Queued m m'' := by
  obtain ⟨n, hn⟩ := h.session
  obtain ⟨n', hn'⟩ := h'.session
  refine ⟨⟨n' + n, by rw [Function.iterate_add_apply, ← hn, hn']⟩, ?_⟩
  rw [h'.rest, h.rest]

theorem Queued.relay (h : Queued m m') : m'.relay = m.relay := by rw [h.rest]

theorem encodeOwnFrame_queued (m : Mux P) (type : MessageType) (objectId : UInt16)
    (payload : Bytes) (capacity : Nat) (stamp : UInt32) :
    Queued m (m.encodeOwnFrame type objectId payload capacity stamp).1 := by
  unfold encodeOwnFrame
  dsimp only
  split <;> exact ⟨⟨1, rfl⟩, rfl⟩

theorem enqueueFrame_queued (m : Mux P) (cls : PriorityClass) (frame : Bytes) :
    Queued m (m.enqueueFrame cls frame).1 := ⟨⟨0, rfl⟩, rfl⟩

theorem enqueueOwn_queued (m : Mux P) (type : MessageType) (objectId : UInt16) (payload : Bytes)
    (stamp : UInt32) : Queued m (m.enqueueOwn type objectId payload stamp).1 := by
  have h := encodeOwnFrame_queued m type objectId payload kMaxFrameBytes stamp
  unfold enqueueOwn
  split
  · rename_i heq
    rwa [heq] at h
  · rename_i heq
    rw [heq] at h
    exact h.trans (enqueueFrame_queued _ _ _)

theorem replyCommandResult_queued (m : Mux P) (header : Header) (actionId version : UInt16)
    (status : Status) (errorCode : ErrorCode) (message : Bytes) :
    Queued m (m.replyCommandResult header actionId version status errorCode message) := by
  unfold replyCommandResult
  dsimp only
  split
  · exact .refl m
  · exact enqueueOwn_queued _ _ _ _ _

theorem replySubscribe_queued (m : Mux P) (header : Header) (reply : SubscribeReply) :
    Queued m (m.replySubscribe header reply) := by
  unfold replySubscribe
  dsimp only
  split
  · exact .refl m
  · exact enqueueOwn_queued _ _ _ _ _

theorem replyUnsubscribe_queued (m : Mux P) (header : Header) :
    Queued m (m.replyUnsubscribe header) := by
  unfold replyUnsubscribe
  dsimp only
  split
  · exact .refl m
  · exact enqueueOwn_queued _ _ _ _ _

/-- Replies one after another. -/
theorem foldl_queued {α : Type} {f : Mux P → α → Mux P} (hf : ∀ m a, Queued m (f m a))
    (l : List α) (m : Mux P) : Queued m (l.foldl f m) := by
  induction l generalizing m with
  | nil => exact .refl m
  | cons a l ih => exact (hf m a).trans (ih (f m a))

theorem enqueueTerminal_queued (m : Mux P) (text : Bytes) : Queued m (m.enqueueTerminal text) :=
  foldl_queued (fun _ _ => enqueueOwn_queued _ _ _ _ _) _ m

/-- A targeted request counts itself in the cache. -/
theorem manifest_queued (m : Mux P) (manifest : ManifestCache.Cache) :
    Queued m { m with shared := { m.shared with manifest } } := ⟨⟨0, rfl⟩, rfl⟩

theorem handleManifestRequest_queued (m : Mux P) (decoded : DecodedFrame) :
    Queued m (m.handleManifestRequest decoded) := by
  unfold handleManifestRequest
  split
  · exact .refl m
  · rename_i request _
    dsimp only
    split
    · refine foldl_queued (fun m index => ?_) _ m
      split
      · exact .refl m
      · exact enqueueOwn_queued _ _ _ _ _
    · refine (manifest_queued m (ManifestCache.buildTargetedResponse P.manifestWriter P.identity
        m.shared.manifest request decoded.header kOutboundPayloadCap).1).trans ?_
      split
      · exact .refl _
      · exact enqueueOwn_queued _ _ _ _ _

end BallyDongle.SerialMux.Mux
