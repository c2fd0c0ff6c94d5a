import Guardianship.Proofs.Message.Wire
import Guardianship.Proofs.Suite.Exponents
import Guardianship.Proofs.Suite.Standard
import Guardianship.Settings

/-!
# All kinds of messages survive JSON

Whatever is sent or stored as JSON is of one of the kinds of messages (`Wire.Kind`), each of which
has a codec and a shape that the codec follows (`Wire.Kind.follows`).

Main statement: `Wire.messages_survive`.
-/

namespace Guardianship

open Codec

open Json (Shape Respells)

/-! ### Settings -/

namespace Settings

def rolesShape : Shape :=
  .record [("ceremony_id", .single), ("mediator_id", .single), ("number_of_guardians", .single),
    ("quorum", .single)]

theorem follows_roles : rolesCodec.Follows rolesShape :=
  follows_record
    (.cons follows_text <| .cons follows_text <| .cons (follows_word _) <|
      .cons (follows_word _) .nil)
    (by decide) fun _ => rfl

def paceShape : Shape := .record [("poll_interval_ms", .single), ("timeout_secs", .single)]

theorem follows_pace : paceCodec.Follows paceShape :=
  follows_record (.cons (follows_word _) <| .cons (follows_word _) .nil) (by decide) fun _ => rfl

def loggingShape : Shape := .record [("level", .single)]

theorem follows_logging : loggingCodec.Follows loggingShape :=
  follows_record (.cons follows_text .nil) (by decide) fun _ => rfl

def outputShape : Shape := .record [("path", .single)]

theorem follows_output : outputCodec.Follows outputShape :=
  follows_record (.cons follows_text .nil) (by decide) fun _ => rfl

def shape : Shape :=
  .record [("ceremony", rolesShape), ("runtime", paceShape), ("logging", loggingShape),
    ("output", outputShape)]

theorem follows_codec : codec.Follows shape :=
  follows_record
    (.cons follows_roles <| .cons follows_pace <| .cons follows_logging <|
      .cons follows_output .nil)
    (by decide) fun _ => rfl

end Settings

namespace Wire

/-! ### Kinds of messages -/

/-- The kinds of messages, of which the last three are also parts of others. -/
inductive Kind
  | terms
  | transportKey
  | electionKey
  | announcement
  | jointKey
  | sealedShare
  | verdict
  | disclosure
  | pair
  | verdictSummary
  | stage
  | outcome
  | report
  | settings
  | scalar
  | element
  | publicKey

namespace Kind

/-- The messages of a kind. -/
def Value : Kind → Type
  | terms => Terms
  | transportKey => TransportKey
  | electionKey => ElectionKey .standard
  | announcement => Announcement .standard
  | jointKey => JointKey .standard
  | sealedShare => SealedShare .standard
  | verdict => Verdict
  | disclosure => Disclosure .standard
  | pair => Pair
  | verdictSummary => VerdictSummary
  | stage => Stage
  | outcome => Outcome
  | report => Report .standard
  | settings => Settings
  | scalar => Suite.standard.Scalar
  | element => Suite.standard.Element
  | publicKey => Block 32

def codec : (kind : Kind) → Codec kind.Value
  | terms => Wire.terms
  | transportKey => Wire.transportKey
  | electionKey => Wire.electionKey .standard
  | announcement => Wire.announcement .standard
  | jointKey => Wire.jointKey .standard
  | sealedShare => Wire.sealedShare .standard
  | verdict => Wire.verdict
  | disclosure => Wire.disclosure .standard
  | pair => Wire.pair
  | verdictSummary => Wire.verdictSummary
  | stage => Wire.stage
  | outcome => Wire.outcome
  | report => Wire.report .standard
  | settings => Settings.codec
  | scalar => Wire.scalar .standard
  | element => Wire.element .standard
  | publicKey => block 32

def shape : Kind → Shape
  | terms => termsShape
  | transportKey => transportKeyShape
  | electionKey => electionKeyShape
  | announcement => announcementShape
  | jointKey => jointKeyShape
  | sealedShare => sealedShareShape
  | verdict => verdictShape
  | disclosure => disclosureShape
  | pair => pairShape
  | verdictSummary => verdictSummaryShape
  | stage => .single
  | outcome => outcomeShape
  | report => reportShape
  | settings => Settings.shape
  | scalar | element | publicKey => .hex

theorem follows : ∀ kind : Kind, kind.codec.Follows kind.shape
  | terms => follows_terms
  | transportKey => follows_transportKey
  | electionKey => follows_electionKey Suite.readable_standard
  | announcement => follows_announcement Suite.readable_standard
  | jointKey => follows_jointKey Suite.readable_standard
  | sealedShare => follows_sealedShare Suite.readable_standard
  | verdict => follows_verdict
  | disclosure => follows_disclosure Suite.readable_standard
  | pair => follows_pair
  | verdictSummary => follows_verdictSummary
  | stage => follows_stage
  | outcome => follows_outcome
  | report => follows_report Suite.readable_standard
  | settings => Settings.follows_codec
  | scalar => follows_scalar
  | element => follows_element Suite.readable_standard
  | publicKey => follows_block 32

/-- What is written of the message that is read. -/
def reencode (kind : Kind) (j : Json) : Except DecodeError Json :=
  kind.codec.ofJson j >>= fun m => .ok (kind.codec.encode m)

end Kind

/-- **Messages survive JSON.**  What is written of a message is read again, from memory and from its
text, and so is whatever is spelled otherwise: with hexadecimal digits in capital letters, with
fields in another order and among unknown ones, or with records as arrays.  So what is written of a
message that was read is read as the same message and written in the same way. -/
theorem messages_survive (kind : Kind) :
    (∀ m : kind.Value, kind.codec.ofJson (kind.codec.encode m) = .ok m ∧
      kind.codec.ofText (kind.codec.encode m).compact = .ok m ∧
      Respells kind.shape (kind.codec.encode m) (kind.codec.encode m)) ∧
    (∀ (m : kind.Value) (j : Json), Respells kind.shape (kind.codec.encode m) j →
      kind.codec.ofJson j = .ok m ∧ (j.Plain → kind.codec.ofText j.compact = .ok m)) ∧
    ∀ j : Json, (kind.reencode j >>= kind.codec.ofJson) = kind.codec.ofJson j ∧
      (kind.reencode j >>= kind.reencode) = kind.reencode j := by
  have hfollows := kind.follows
  have hread := hfollows.lossless.ofJson_encode
  refine ⟨fun m => ⟨hread m, hfollows.lossless.ofText_compact m,
    hfollows.writes id Json.rearranges_id m⟩, fun m j hj => ?_, fun j => ?_⟩
  · have hshows := hfollows.shows hj
    exact ⟨hshows .memory, hshows.ofText_compact⟩
  · unfold Kind.reencode
    cases kind.codec.ofJson j with
    | error e => exact ⟨rfl, rfl⟩
    | ok m =>
      refine ⟨hread m, ?_⟩
      show (kind.codec.ofJson (kind.codec.encode m) >>= fun m => .ok (kind.codec.encode m)) =
        .ok (kind.codec.encode m)
      rw [hread m]
      rfl

/-- An announcement is read with its parts the other way round and among an unknown field, with one
part as an array and the fields of the other in reverse, and in capital letters. -/
theorem respelled_announcement_survives :
    (announcement .standard).ofJson (.object [
        ("note", .null),
        ("auxiliary", .array [.string "guardian-1", .natural 1,
          .string (Hex.encode (Suite.exponent 9).octets).toUpper]),
        ("election", .object [
          ("coefficient_commitments",
            .array [.string (Hex.encode (Suite.standard.encode Suite.standard.generator)).toUpper]),
          ("key", .string (Hex.encode (Suite.standard.encode Suite.standard.generator))),
          ("sequence_order", .natural 1),
          ("owner_id", .string "guardian-1")])]) =
      .ok ⟨⟨"guardian-1", 1, Suite.standard.generator, [Suite.standard.generator]⟩,
        ⟨"guardian-1", 1, Suite.exponent 9⟩⟩ := by
  refine ((messages_survive .announcement).2.1
    ⟨⟨"guardian-1", 1, Suite.standard.generator, [Suite.standard.generator]⟩,
      ⟨"guardian-1", 1, Suite.exponent 9⟩⟩ _ ?_).1
  have hcapital := Hex.toLower_toUpper_encode
  have hkey := Hex.toLower_encode
  have helection : Respells electionKeyShape _ (.object [
      ("coefficient_commitments",
        .array [.string (Hex.encode (Suite.standard.encode Suite.standard.generator)).toUpper]),
      ("key", .string (Hex.encode (Suite.standard.encode Suite.standard.generator))),
      ("sequence_order", .natural 1),
      ("owner_id", .string "guardian-1")]) :=
    .object (.cons (.single _) <| .cons (.single _) <| .cons (.hex (hkey _)) <|
      .cons (.list (.cons (.hex (hcapital _)) .nil)) .nil) (List.forall_mem_nil _)
      (List.reverse_perm _).symm
  have htransport : Respells transportKeyShape _ (.array [.string "guardian-1", .natural 1,
      .string (Hex.encode (Suite.exponent 9).octets).toUpper]) :=
    .array (.cons (.single _) <| .cons (.single _) <| .cons (.hex (hcapital _)) .nil)
  exact .object (.cons helection <| .cons htransport .nil)
    (List.forall_mem_singleton.mpr (by decide)) (List.reverse_perm _).symm

end Wire

end Guardianship
