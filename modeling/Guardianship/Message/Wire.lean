import Guardianship.Json.Codec
import Guardianship.Message
import Guardianship.Terms

/-!
# Messages on the wire

The names under which the messages of a ceremony and their fields are written as JSON.
-/

namespace Guardianship.Wire

open Codec Row

/-- Positions of guardians. -/
def order : Codec UInt64 := word "u64"

/-- Counts. -/
def count : Codec UInt64 := word "usize"

def terms : Codec Terms :=
  record "CeremonyDetails"
    (cons (required "ceremony_id" text) <|
      cons (required "number_of_guardians" count) <|
      cons (required "quorum" count) nil)
    (fun t => (t.ceremonyId, t.guardians, t.quorum, ()))
    (fun (ceremonyId, guardians, quorum, ()) => ⟨ceremonyId, guardians, quorum⟩)

def transportKey : Codec TransportKey :=
  record "AuxiliaryPublicKey"
    (cons (required "owner_id" text) <|
      cons (required "sequence_order" order) <|
      cons (required "key" (block 32)) nil)
    (fun k => (k.owner, k.order, k.key, ()))
    (fun (owner, order, key, ()) => ⟨owner, order, key⟩)

def verdict : Codec Verdict :=
  record "ElectionPartialKeyVerification"
    (cons (required "owner_id" text) <|
      cons (required "designated_id" text) <|
      cons (required "verifier_id" text) <|
      cons (required "verified" flag) nil)
    (fun v => (v.owner, v.recipient, v.judge, v.good, ()))
    (fun (owner, recipient, judge, good, ()) => ⟨owner, recipient, judge, good⟩)

def pair : Codec Pair :=
  record "GuardianPair"
    (cons (required "owner_id" text) <|
      cons (required "designated_id" text) nil)
    (fun p => (p.owner, p.recipient, ()))
    (fun (owner, recipient, ()) => ⟨owner, recipient⟩)

def verdictSummary : Codec VerdictSummary :=
  record "BackupVerificationState"
    (cons (required "all_sent" flag) <|
      cons (required "all_verified" flag) <|
      cons (required "failed_verifications" (list pair)) nil)
    (fun s => (s.allSent, s.allGood, s.failed, ()))
    (fun (allSent, allGood, failed, ()) => ⟨allSent, allGood, failed⟩)

def stage : Codec Stage := variants (Stage.all.map fun s => (s.name, s)) Stage.name

def outcome : Codec Outcome :=
  record "GuardianOutcome"
    (cons (required "guardian_id" text) <|
      cons (required "sequence_order" order) <|
      cons (required "backups_sent" count) <|
      cons (required "backups_received" count) <|
      cons (required "verifications_failed" count) <|
      cons (required "challenges_issued" count) <|
      cons (required "challenges_upheld" count) nil)
    (fun o => (o.guardian, o.order, o.sharesSent, o.sharesReceived, o.sharesRefused, o.disclosed,
      o.upheld, ()))
    (fun (guardian, order, sent, received, refused, disclosed, upheld, ()) =>
      ⟨guardian, order, sent, received, refused, disclosed, upheld⟩)

variable (S : Suite)

/-! ### Messages with scalars and elements -/

def scalar : Codec S.Scalar :=
  octets.via S.encodeScalar fun xs => orRefuse .encoding (S.decodeScalar xs)

def element : Codec S.Element :=
  octets.via S.encode fun xs => orRefuse .encoding (S.decode xs)

def electionKey : Codec (ElectionKey S) :=
  record "ElectionPublicKey"
    (cons (required "owner_id" text) <|
      cons (required "sequence_order" order) <|
      cons (required "key" (element S)) <|
      cons (required "coefficient_commitments" (list (element S))) nil)
    (fun k => (k.owner, k.order, k.key, k.commitments, ()))
    (fun (owner, order, key, commitments, ()) => ⟨owner, order, key, commitments⟩)

def announcement : Codec (Announcement S) :=
  record "PublicKeySet"
    (cons (required "election" (electionKey S)) <|
      cons (required "auxiliary" transportKey) nil)
    (fun a => (a.election, a.transport, ()))
    (fun (election, transport, ()) => ⟨election, transport⟩)

def jointKey : Codec (JointKey S) :=
  record "ElectionJointKey"
    (cons (required "joint_public_key" (element S)) <|
      cons (required "commitment_hash" (block 32)) nil)
    (fun k => (k.key, k.transcript, ()))
    (fun (key, transcript, ()) => ⟨key, transcript⟩)

def sealedShare : Codec (SealedShare S) :=
  record "ElectionPartialKeyBackup"
    (cons (required "owner_id" text) <|
      cons (required "designated_id" text) <|
      cons (required "designated_sequence_order" order) <|
      cons (required "encrypted_value" octets) <|
      cons (required "coefficient_commitments" (list (element S))) nil)
    (fun s => (s.owner, s.recipient, s.order, s.sealed, s.commitments, ()))
    (fun (owner, recipient, order, sealed, commitments, ()) =>
      ⟨owner, recipient, order, sealed, commitments⟩)

def disclosure : Codec (Disclosure S) :=
  record "ElectionPartialKeyChallenge"
    (cons (required "owner_id" text) <|
      cons (required "designated_id" text) <|
      cons (required "designated_sequence_order" order) <|
      cons (required "value" (scalar S)) <|
      cons (required "coefficient_commitments" (list (element S))) nil)
    (fun d => (d.owner, d.recipient, d.order, d.value, d.commitments, ()))
    (fun (owner, recipient, order, value, commitments, ()) =>
      ⟨owner, recipient, order, value, commitments⟩)

def report : Codec (Report S) :=
  record "CeremonyReport"
    (cons (required "ceremony_id" text) <|
      cons (required "mediator_id" text) <|
      cons (required "number_of_guardians" count) <|
      cons (required "quorum" count) <|
      cons (required "stage" stage) <|
      cons (required "joint_key" (jointKey S)) <|
      cons (required "challenges" count) <|
      cons (required "guardians" (list outcome)) nil)
    (fun r => (r.ceremonyId, r.mediator, r.guardians, r.quorum, r.stage, r.jointKey,
      r.disclosures, r.outcomes, ()))
    (fun (ceremonyId, mediator, guardians, quorum, stage, jointKey, disclosures, outcomes, ()) =>
      ⟨ceremonyId, mediator, guardians, quorum, stage, jointKey, disclosures, outcomes⟩)

end Guardianship.Wire
