import Guardianship.Message.Wire
import Guardianship.Proofs.Json.Spelling
import Guardianship.Proofs.Suite.Laws

/-!
# Messages on the wire

The shapes in which messages are written, with the names of their fields.  If elements can be sent
as octets, all messages follow their shapes; in particular a sealed share is read again from the
JSON that is written of it (`Wire.lossless_sealedShare`).
-/

namespace Guardianship.Wire

open Codec

open Json (Shape)

/-! ### Messages without elements -/

def termsShape : Shape :=
  .record [("ceremony_id", .single), ("number_of_guardians", .single), ("quorum", .single)]

theorem follows_terms : terms.Follows termsShape :=
  follows_record (.cons follows_text <| .cons (follows_word _) <| .cons (follows_word _) .nil)
    (by decide) fun _ => rfl

theorem follows_block (n : ℕ) : (block n).Follows .hex :=
  follows_octets.via fun b => by rw [Block.ofOctets?_octets]

def transportKeyShape : Shape :=
  .record [("owner_id", .single), ("sequence_order", .single), ("key", .hex)]

theorem follows_transportKey : transportKey.Follows transportKeyShape :=
  follows_record (.cons follows_text <| .cons (follows_word _) <| .cons (follows_block 32) .nil)
    (by decide) fun _ => rfl

def verdictShape : Shape :=
  .record [("owner_id", .single), ("designated_id", .single), ("verifier_id", .single),
    ("verified", .single)]

theorem follows_verdict : verdict.Follows verdictShape :=
  follows_record
    (.cons follows_text <| .cons follows_text <| .cons follows_text <| .cons follows_flag .nil)
    (by decide) fun _ => rfl

def pairShape : Shape := .record [("owner_id", .single), ("designated_id", .single)]

theorem follows_pair : pair.Follows pairShape :=
  follows_record (.cons follows_text <| .cons follows_text .nil) (by decide) fun _ => rfl

def verdictSummaryShape : Shape :=
  .record [("all_sent", .single), ("all_verified", .single),
    ("failed_verifications", .list pairShape)]

theorem follows_verdictSummary : verdictSummary.Follows verdictSummaryShape :=
  follows_record (.cons follows_flag <| .cons follows_flag <| .cons follows_pair.list .nil)
    (by decide) fun _ => rfl

theorem follows_stage : stage.Follows .single :=
  follows_variants fun s => by cases s <;> decide

def outcomeShape : Shape :=
  .record [("guardian_id", .single), ("sequence_order", .single), ("backups_sent", .single),
    ("backups_received", .single), ("verifications_failed", .single),
    ("challenges_issued", .single), ("challenges_upheld", .single)]

theorem follows_outcome : outcome.Follows outcomeShape :=
  follows_record
    (.cons follows_text <| .cons (follows_word _) <| .cons (follows_word _) <|
      .cons (follows_word _) <| .cons (follows_word _) <| .cons (follows_word _) <|
      .cons (follows_word _) .nil)
    (by decide) fun _ => rfl

/-! ### Messages with scalars and elements -/

variable {S : Suite}

theorem follows_scalar : (scalar S).Follows .hex :=
  follows_octets.via fun a => by
    rw [Suite.decodeScalar_encodeScalar]
    rfl

def electionKeyShape : Shape :=
  .record [("owner_id", .single), ("sequence_order", .single), ("key", .hex),
    ("coefficient_commitments", .list .hex)]

def announcementShape : Shape :=
  .record [("election", electionKeyShape), ("auxiliary", transportKeyShape)]

def jointKeyShape : Shape := .record [("joint_public_key", .hex), ("commitment_hash", .hex)]

def sealedShareShape : Shape :=
  .record [("owner_id", .single), ("designated_id", .single),
    ("designated_sequence_order", .single), ("encrypted_value", .hex),
    ("coefficient_commitments", .list .hex)]

def disclosureShape : Shape :=
  .record [("owner_id", .single), ("designated_id", .single),
    ("designated_sequence_order", .single), ("value", .hex),
    ("coefficient_commitments", .list .hex)]

def reportShape : Shape :=
  .record [("ceremony_id", .single), ("mediator_id", .single), ("number_of_guardians", .single),
    ("quorum", .single), ("stage", .single), ("joint_key", jointKeyShape),
    ("challenges", .single), ("guardians", .list outcomeShape)]

section Readable

variable (hR : S.Readable)
include hR

theorem follows_element : (element S).Follows .hex :=
  follows_octets.via fun a => by
    rw [hR a]
    rfl

theorem follows_electionKey : (electionKey S).Follows electionKeyShape :=
  follows_record
    (.cons follows_text <| .cons (follows_word _) <| .cons (follows_element hR) <|
      .cons (follows_element hR).list .nil)
    (by decide) fun _ => rfl

theorem follows_announcement : (announcement S).Follows announcementShape :=
  follows_record (.cons (follows_electionKey hR) <| .cons follows_transportKey .nil)
    (by decide) fun _ => rfl

theorem follows_jointKey : (jointKey S).Follows jointKeyShape :=
  follows_record (.cons (follows_element hR) <| .cons (follows_block 32) .nil)
    (by decide) fun _ => rfl

theorem follows_sealedShare : (sealedShare S).Follows sealedShareShape :=
  follows_record
    (.cons follows_text <| .cons follows_text <| .cons (follows_word _) <|
      .cons follows_octets <| .cons (follows_element hR).list .nil)
    (by decide) fun _ => rfl

theorem follows_disclosure : (disclosure S).Follows disclosureShape :=
  follows_record
    (.cons follows_text <| .cons follows_text <| .cons (follows_word _) <|
      .cons follows_scalar <| .cons (follows_element hR).list .nil)
    (by decide) fun _ => rfl

theorem follows_report : (report S).Follows reportShape :=
  follows_record
    (.cons follows_text <| .cons follows_text <| .cons (follows_word _) <|
      .cons (follows_word _) <| .cons follows_stage <| .cons (follows_jointKey hR) <|
      .cons (follows_word _) <| .cons follows_outcome.list .nil)
    (by decide) fun _ => rfl

/-- **Sealed shares survive JSON.** -/
theorem lossless_sealedShare : (sealedShare S).Lossless := (follows_sealedShare hR).lossless

end Readable

end Guardianship.Wire
