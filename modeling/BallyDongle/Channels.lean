import BallyDongle.Btp

/-!
# What the dongle may consume

`bally_channels.h`: the header-only prefilter of the radio ingress and the
ownership check made on the opened plaintext.
-/

namespace BallyDongle.Channels

open Btp

def kCommandRequestObjectId : UInt16 := 0x0001
def kCommandResultObjectId : UInt16 := 0x0002
def kManifestDataObjectId : UInt16 := 0x0004
def kStatusObjectId : UInt16 := 0x0009

/-- Header-only prefilter: a candidate to retain, reassemble and open. -/
def dongleMayConsume (type : MessageType) (objectId : UInt16) : Bool :=
  (type = .control && objectId = kStatusObjectId) ||
  (type = .command && (objectId = kCommandRequestObjectId || objectId = kCommandResultObjectId)) ||
  (type = .control && objectId = kManifestDataObjectId)

/-- Final ownership check, on the reference id of the authenticated plaintext. -/
def dongleConsumes (type : MessageType) (objectId : UInt16)
    (referenceSourceId selfSourceId : UInt32) : Bool :=
  (type = .control && objectId = kStatusObjectId) ||
  (((type = .command &&
      (objectId = kCommandRequestObjectId || objectId = kCommandResultObjectId)) ||
    (type = .control && objectId = kManifestDataObjectId)) &&
    referenceSourceId = selfSourceId && selfSourceId != 0)

/-- Candidates are link administration: control messages or commands. -/
theorem type_of_mayConsume {type : MessageType} {objectId : UInt16}
    (h : dongleMayConsume type objectId = true) : type = .control ∨ type = .command := by
  cases type <;> simp [dongleMayConsume] at h ⊢

/-- What the dongle owns it was a candidate for. -/
theorem mayConsume_of_consumes {type : MessageType} {objectId : UInt16} {ref self : UInt32}
    (h : dongleConsumes type objectId ref self = true) : dongleMayConsume type objectId = true := by
  simp only [dongleConsumes, dongleMayConsume, Bool.or_eq_true, Bool.and_eq_true] at h ⊢
  tauto

/-- Apart from STATUS, the dongle owns only what names it by a non-zero id. -/
theorem reference_of_consumes {type : MessageType} {objectId : UInt16} {ref self : UInt32}
    (h : dongleConsumes type objectId ref self = true)
    (hs : ¬ (type = .control ∧ objectId = kStatusObjectId)) : ref = self ∧ self ≠ 0 := by
  simp only [dongleConsumes, Bool.or_eq_true, Bool.and_eq_true, decide_eq_true_eq, bne_iff_ne] at h
  rcases h with h | ⟨⟨-, h⟩, h0⟩
  · exact absurd h hs
  · exact ⟨h, h0⟩

end BallyDongle.Channels
