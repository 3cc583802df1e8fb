import BallyDongle.SubscriptionRegistry.Leases
import BallyDongle.SerialMux.Topics

/-!
# The lease a client is told

A SUBSCRIBE that is accepted is answered with the lease its entry is held to.
-/

namespace BallyDongle.SerialMux

open Btp SubscriptionRegistry

theorem grantedLeaseMs_eq (requested : UInt32) : grantedLeaseMs requested = clampLease requested :=
  rfl

theorem Topics.subscribe_grantedLeaseMs (t : Topics) (selfSourceId : UInt32)
    (manifest : ManifestCache.Cache) (clientId : UInt32) (sub : Subscribe) (nowMs : UInt32) :
    (t.subscribe selfSourceId manifest clientId sub nowMs).2.status = 0x00 →
      (t.subscribe selfSourceId manifest clientId sub nowMs).2.grantedLeaseMs =
        clampLease sub.requestedLeaseMs := by
  unfold Topics.subscribe
  dsimp only
  split
  · exact nofun
  · split
    · exact fun _ => grantedLeaseMs_eq _
    · exact nofun

/-- The law of the leases, along every paced run: sweeps remove what ran out and nothing
else, what a row asserts is renewed in time, and a client is told the lease it has. -/
theorem run_leaseLaw (start d : Nat) (calls : List (Nat × Op))
    (hpaced : Run.AllSteps Timeline.step Paced (Timeline.start start) calls) :
    Run.AllSteps Timeline.step (fun t call => SweepsLeases t call ∧ RenewsInTime d t call)
      (Timeline.start start) calls ∧
    ∀ (t : Topics) selfSourceId manifest clientId sub nowMs,
      (t.subscribe selfSourceId manifest clientId sub nowMs).2.status = 0x00 →
      (t.subscribe selfSourceId manifest clientId sub nowMs).2.grantedLeaseMs =
        clampLease sub.requestedLeaseMs :=
  ⟨run_leases start d calls hpaced, Topics.subscribe_grantedLeaseMs⟩

/-- A lease of a second, subscribed just before the clock comes round. -/
def benchCalls : List (Nat × Op) :=
  [(2 ^ 32 - 100, .subscribe 7 1 2 500 1000 0), (2 ^ 32 + 400, .sweep 0 {}),
    (2 ^ 32 + 900, .sweep 0 {})]

theorem run_leaseLaw_second :
    Run.AllSteps Timeline.step (fun t call => SweepsLeases t call ∧ RenewsInTime 500 t call)
      (Timeline.start (2 ^ 32 - 200)) benchCalls := by
  have hpaced : Run.AllSteps Timeline.step Paced (Timeline.start (2 ^ 32 - 200)) benchCalls :=
    ⟨⟨by decide, nofun⟩, ⟨by decide, fun _ => by decide⟩, ⟨by decide, fun _ => by decide⟩,
      trivial⟩
  exact (run_leaseLaw (2 ^ 32 - 200) 500 benchCalls hpaced).1

/-- A first sweep more than half a turn after a deadline takes it for one ahead. -/
theorem late_first_sweep :
    let t := (Timeline.start 0).step (0, .subscribe 7 1 2 500 1000 0)
    let ms := 2 ^ 31 + 1000
    ∃ r i, t.granted (t.registry.rows r).topic ((t.registry.rows r).clients i).clientId =
        some ⟨0, 1000⟩ ∧
      (clampLease 1000).toNat ≤ ms - 0 ∧ ((t.registry.rows r).clients i).used = true ∧
      (((t.step (ms, .sweep 0 {})).registry.rows r).clients i).used = true := by
  decide

end BallyDongle.SerialMux
