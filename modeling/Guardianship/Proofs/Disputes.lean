import Guardianship.Proofs.Guardian.Consistency
import Guardianship.Proofs.Guardian.Places
import Guardianship.Proofs.Mediator.Announcements

/-!
# Disputes

The recipient of a share opens it and checks the value, and the mediator checks a value that is
disclosed.  The two go by the same rule: if they know the same commitments of the owner and the same
place of the recipient, a share is found good exactly if the value in it would be found good upon
disclosure (`verdict_iff_judgement`).

What an honest owner discloses is the value of its polynomial at the place of the share.  That is
the place which the recipient announced with its transport key, while the mediator goes by the one
in the election key, and nobody compares the two.  So an accuser who announced two different places
is found right against an honest owner (`answers_upheld_iff`, `honest_answer_rejected`).
-/

namespace Guardianship

variable {S : Suite}

/-! ### One rule for recipients and mediators -/

/-- The disclosure of a share in which some value was found. -/
def SealedShare.disclosing (s : SealedShare S) (y : S.Scalar) : Disclosure S :=
  ⟨s.owner, s.recipient, s.order, y, s.commitments⟩

/-- A guardian and a mediator have heard the same commitments of an owner, if any, and the mediator
has heard the guardian's own place. -/
structure Concur (g : Guardian S) (m : Mediator S) (owner : String) : Prop where
  commitments : (g.known.get? owner).map (fun a => a.election.commitments) =
    (m.electionKeys.get? owner).map ElectionKey.commitments
  order : (m.electionKeys.get? g.id).map ElectionKey.order = some g.order

namespace Concur

variable {g : Guardian S} {m : Mediator S} {s : SealedShare S} (h : Concur g m s.owner)
  (hs : s.recipient = g.id)
include h hs

/-- They agree on whether a share, or what was found in it, is of what was announced. -/
theorem matchesAnnounced_eq (y : S.Scalar) :
    m.matchesAnnounced (s.disclosing y) = g.matchesAnnounced s := by
  have horder : (m.electionKeys.get? (s.disclosing y).recipient).map ElectionKey.order =
      some g.order := by
    rw [SealedShare.disclosing, hs, h.order]
  rw [Bool.eq_iff_iff, Mediator.matchesAnnounced, Guardian.matchesAnnounced, horder, h.commitments]
  have hcomm : g.order = s.order ↔ s.order = g.order := eq_comm
  simp [SealedShare.disclosing, hcomm]

/-- A share that can be opened is judged as the value in it is. -/
theorem judge_good_eq {y : S.Scalar} (hy : s.reveal g.secret = .ok y) :
    (m.judge (s.disclosing y)).good = (g.judge s).good := by
  have hopen : s.isGood g.secret = (s.disclosing y).isGood := by
    rw [SealedShare.isGood, hy]
    rfl
  show ((s.disclosing y).isGood && m.matchesAnnounced (s.disclosing y)) =
    (s.isGood g.secret && g.matchesAnnounced s)
  rw [hopen, h.matchesAnnounced_eq hs]

theorem judge_good_iff :
    (g.judge s).good = true ↔
      ∃ y, s.reveal g.secret = .ok y ∧ (m.judge (s.disclosing y)).good = true := by
  constructor
  · intro hgood
    obtain ⟨y, hy, -⟩ := SealedShare.isGood_iff.mp (Guardian.judge_good_iff.mp hgood).1
    exact ⟨y, hy, by rw [h.judge_good_eq hs hy, hgood]⟩
  · rintro ⟨y, hy, hgood⟩
    rw [← h.judge_good_eq hs hy, hgood]

end Concur

/-- **Recipients and mediators judge by one rule.**  Whatever a guardian is sent as a share of an
owner, if it and the mediator have heard the same, its verdict is good exactly if the share can be
opened and the mediator would find the value in it good upon disclosure.  So disclosing what is in a
share that can be opened confirms the verdict on it, good or bad. -/
theorem verdict_iff_judgement {g : Guardian S} (hg : g.Reachable) {m : Mediator S}
    {s : SealedShare S} (hs : s.recipient = g.id) (h : Concur g m s.owner) :
    (∃ v ∈ (g.accept s).verdicts, v.owner = s.owner) ∧
    ∀ v ∈ (g.accept s).verdicts, v.owner = s.owner →
      v.recipient = g.id ∧ v.judge = g.id ∧
      (v.good = true ↔
        ∃ y, s.reveal g.secret = .ok y ∧ (m.judge (s.disclosing y)).good = true) ∧
      ∀ y, s.reveal g.secret = .ok y → (m.judge (s.disclosing y)).good = v.good := by
  have hreceived : (g.accept s).received.get? s.owner = some s := by
    rw [Guardian.get?_received_accept hs, if_pos rfl]
  obtain ⟨hid, horder, -, hsecret⟩ := Guardian.fields_of_core (Guardian.core_accept g s)
  -- keeping the share has changed nothing that verdicts depend on
  have hjudge : (g.accept s).judge s = g.judge s := by
    simp only [Guardian.judge, Guardian.matchesAnnounced, hid, horder, hsecret,
      Guardian.known_accept]
  constructor
  · exact ⟨_, List.mem_map_of_mem (Ledger.mem_values.mpr ⟨s.owner, hreceived⟩), rfl⟩
  · intro v hv howner
    obtain ⟨t, ht, -, -, rfl⟩ := Guardian.get?_of_mem_verdicts (hg.accept s).filed hv
    rw [howner, hreceived] at ht
    cases ht
    rw [hjudge]
    exact ⟨hs, rfl, h.judge_good_iff hs, fun y hy => h.judge_good_eq hs hy⟩

/-- A share of the polynomial `3 + 5 x` for the second place is found good, since its value is. -/
theorem verdict_on_share_of_line :
    ∃ (g : Guardian Suite.exponents) (m : Mediator Suite.exponents)
      (s : SealedShare Suite.exponents) (y : Suite.exponents.Scalar),
      g.Reachable ∧ s.recipient = g.id ∧ Concur g m s.owner ∧ s.reveal g.secret = .ok y ∧
      (m.judge (s.disclosing y)).good = true ∧
      ∃ v ∈ (g.accept s).verdicts, v.owner = s.owner ∧ v.good = true := by
  have ho : (2 : UInt64) ≠ 0 := by decide
  have hq : (⟨"ceremony", 2, 2⟩ : Terms).quorum ≠ 0 := by decide
  obtain ⟨g₀, hg₀⟩ := Guardian.exists_create (S := Suite.exponents) "b" ho hq (⟨0⟩ : SplitMix)
  obtain ⟨q, sk, rfl, -⟩ := Guardian.of_create hg₀
  obtain ⟨e, -, -, hs⟩ := SealedShare.exists_sealWith sk "a" Guardian.line
    (TransportKey.ofSecret Suite.exponents "b" 2 sk)
  let a : Announcement Suite.exponents :=
    ⟨.ofPolynomial "a" 1 Guardian.line, .ofSecret Suite.exponents "a" 1 sk⟩
  let g : Guardian Suite.exponents := (Guardian.ofSecrets "b" 2 ⟨"ceremony", 2, 2⟩ q sk).learn a
  let m : Mediator Suite.exponents :=
    [Mediator.Request.announce a, .announce g.announcement].foldl Mediator.apply
      (.start "mediator" ⟨"ceremony", 2, 2⟩)
  let s : SealedShare Suite.exponents := ⟨"a", "b", 2, e.encode, Guardian.line.commitments⟩
  have hg : g.Reachable := (Guardian.Reachable.create hg₀).learn a
  have hconcur : Concur g m s.owner := ⟨rfl, rfl⟩
  have hkey : (TransportKey.ofSecret Suite.exponents "b" 2 sk).key = Suite.exponents.publicKey sk :=
    rfl
  have hreveal := SealedShare.reveal_of_sealWith Suite.agrees_exponents hkey hs
  have hgood : (m.judge (s.disclosing (Guardian.line.evaluate 2))).good = true :=
    Mediator.judge_good_iff.mpr
      ⟨(Commitments.accepts_iff Suite.lawful_exponents Guardian.line 2 _).mpr rfl,
        ⟨_, rfl, rfl⟩, _, rfl, rfl⟩
  obtain ⟨⟨v, hv, howner⟩, hall⟩ := verdict_iff_judgement hg rfl hconcur
  exact ⟨g, m, s, _, hg, rfl, hconcur, hreveal, hgood, v, hv, howner,
    (hall v hv howner).2.2.1.mpr ⟨_, hreveal, hgood⟩⟩

/-! ### The answers of an honest owner -/

/-- Of an honest disclosure nothing can be wrong but the place of the recipient. -/
theorem judge_disclose (hS : S.Lawful) {m : Mediator S} {s : SealedShare S} {p : Polynomial S}
    {e k : ElectionKey S} (he : m.electionKeys.get? s.owner = some e)
    (hp : e.commitments = p.commitments) (hk : m.electionKeys.get? s.recipient = some k) :
    m.judge (s.disclose p) = ⟨s.owner, s.recipient, m.id, decide (k.order = s.order)⟩ := by
  have hgood : (m.judge (s.disclose p)).good = decide (k.order = s.order) := by
    rw [Bool.eq_iff_iff, Mediator.judge_good_iff, decide_eq_true_iff]
    constructor
    · rintro ⟨-, -, k', hk', horder⟩
      obtain rfl := Option.some.inj (hk.symm.trans hk')
      exact horder
    · intro horder
      exact ⟨(Commitments.accepts_iff hS p _ _).mpr rfl, ⟨e, he, hp⟩, k, hk, horder⟩
  exact congrArg (Verdict.mk s.owner s.recipient m.id) hgood

section Answers

open Guardian

variable {m : Mediator S} {terms : Terms} {g g₁ : Guardian S} {as : List (Announcement S)}
  (hg : g.CreatedFor terms) (hroster : m.roster (some g.id) = some as) (has : g.Learns as g₁)
include hg hroster has

/-- Who has learned what the mediator gives out knows of everyone else what the mediator does. -/
theorem get?_known_of_roster (hf : m.Filed) {id : String} (hid : id ≠ g.id)
    {a : Announcement S} :
    g₁.known.get? id = some a ↔
      m.electionKeys.get? id = some a.election ∧ m.transportKeys.get? id = some a.transport := by
  have hgiven : ∀ b, lastOf as id = some b →
      m.electionKeys.get? id = some b.election ∧ m.transportKeys.get? id = some b.transport := by
    intro b hb
    obtain ⟨hmem, howner⟩ := mem_of_lastOf hb
    obtain ⟨o, -, he, ht⟩ := (Mediator.mem_roster hroster).mp hmem
    obtain rfl : o = id := (hf.electionKeys o _ he).symm.trans howner
    exact ⟨he, ht⟩
  rw [get?_known_eq_lastOf hg has hid]
  constructor
  · exact hgiven a
  · rintro ⟨he, ht⟩
    obtain rfl : a.owner = id := hf.electionKeys id _ he
    obtain ⟨b, hb⟩ := exists_lastOf ((Mediator.mem_roster hroster).mpr ⟨_, hid, he, ht⟩)
    obtain ⟨he', ht'⟩ := hgiven b hb
    have helection : b.election = a.election := Option.some.inj (he'.symm.trans he)
    have htransport : b.transport = a.transport := Option.some.inj (ht'.symm.trans ht)
    exact hb.trans (congrArg some (congrArg₂ Announcement.mk helection htransport))

/-- A guardian who has learned what the mediator gives out can deal, and then it has an answer for
everyone else, for the place that was announced with the transport key. -/
theorem exists_answers (hm : Mediator.Reachable m) {ρ : Type} [RandomSource ρ] (r : ρ) :
    ∃ g₂, (g₁.deal r).1 = .ok g₂ ∧
      ∀ id ∈ m.announcers, id ≠ g.id →
        ∃ (k : ElectionKey S) (t : TransportKey) (s : SealedShare S),
          m.electionKeys.get? id = some k ∧ m.transportKeys.get? id = some t ∧
          g₂.disclose id = some (s.disclose g.polynomial) ∧
          s.owner = g.id ∧ s.recipient = id ∧ s.order = t.order := by
  have hf := hm.filed
  have hknown := fun {id} (hid : id ≠ g.id) {a} =>
    get?_known_of_roster hg hroster has hf hid (a := a)
  obtain ⟨hid₁, -, hp₁, -⟩ := fields_of_core has.core_eq
  have howners : ∀ id a, g₁.known.get? id = some a → id ≠ g₁.id → a.transport.owner = id := by
    intro id a ha hne
    rw [hid₁] at hne
    exact hf.transportKeys id _ ((hknown hne).mp ha).2
  obtain ⟨dealt, hd, -⟩ := g₁.exists_deal r howners
  refine ⟨_, hd, fun id hmem hne => ?_⟩
  have ha := Mediator.allAnnounced_iff.mp (Mediator.allAnnounced_of_roster hroster)
  obtain ⟨k, hk⟩ := Ledger.mem_keys.mp (Mediator.mem_announcers.mp hmem)
  obtain ⟨t, ht⟩ := Ledger.mem_keys.mp (Mediator.mem_carriers.mp (ha.announcers_eq ▸ hmem))
  obtain ⟨s, hs, secret, hseal⟩ :=
    (of_deal hd).1 id ⟨k, t⟩ (hid₁ ▸ hne) ((hknown hne).mpr ⟨hk, ht⟩)
  obtain ⟨howner, hrecipient, horder, -⟩ := SealedShare.fields_of_sealWith hseal
  refine ⟨k, t, s, hk, ht, disclose_eq_some_iff.mpr ⟨s, hs, congrArg _ hp₁⟩, howner.trans hid₁,
    hrecipient.trans (hf.transportKeys id t ht), horder⟩

/-- **An honest owner can answer, unless the accuser has two places.**  Whatever others have
announced, a guardian who has learned it can deal, and then has an answer for everyone else.  The
mediator finds the answer good exactly if the same place was announced with both keys of whom it is
for. -/
theorem answers_upheld_iff (hS : S.Lawful) (hm : Mediator.Reachable m)
    (hown : m.electionKeys.get? g.id = some g.announcement.election) {ρ : Type} [RandomSource ρ]
    (r : ρ) :
    ∃ g₂, (g₁.deal r).1 = .ok g₂ ∧
      ∀ id ∈ m.announcers, id ≠ g.id →
        ∃ k t d, m.electionKeys.get? id = some k ∧ m.transportKeys.get? id = some t ∧
          g₂.disclose id = some d ∧ m.judge d = ⟨g.id, id, m.id, decide (k.order = t.order)⟩ := by
  obtain ⟨g₂, hd, hall⟩ := exists_answers hg hroster has hm r
  refine ⟨g₂, hd, fun id hmem hne => ?_⟩
  obtain ⟨k, t, s, hk, ht, hdisclose, howner, hrecipient, horder⟩ := hall id hmem hne
  refine ⟨k, t, _, hk, ht, hdisclose, ?_⟩
  rw [← howner] at hown
  rw [← hrecipient] at hk
  rw [judge_disclose hS hown rfl hk, howner, hrecipient, horder]

end Answers

/-! ### An owner and its accuser -/

/-- What an accuser announces, for one place with its election key and for another with its
transport key. -/
def accuser (S : Suite) (place place' : UInt64) : Announcement S :=
  ⟨⟨"b", place, S.generator, [S.generator]⟩, ⟨"b", place', .ofNatLE 9⟩⟩

/-- A mediator to whom an owner and an accuser have announced. -/
def disputed (owner accuser : Announcement S) : Mediator S :=
  [Mediator.Request.announce owner, .announce accuser].foldl Mediator.apply
    (Mediator.start "mediator" ⟨"ceremony", 2, 2⟩)

section Disputed

variable (owner : Announcement S) (place place' : UInt64)

theorem reachable_disputed : Mediator.Reachable (disputed owner (accuser S place place')) :=
  Mediator.Reachable.foldl _ (.start _ _)

theorem get?_electionKeys_accuser :
    (disputed owner (accuser S place place')).electionKeys.get? "b" =
      some (accuser S place place').election := Ledger.get?_insert_self _ _ _

theorem get?_transportKeys_accuser :
    (disputed owner (accuser S place place')).transportKeys.get? "b" =
      some (accuser S place place').transport := Ledger.get?_insert_self _ _ _

/-- The owner can have been created, and it can ask for what the accuser has announced. -/
theorem exists_disputed (S : Suite) :
    ∃ g : Guardian S, g.CreatedFor ⟨"ceremony", 2, 2⟩ ∧ g.id = "a" ∧
      (disputed g.announcement (accuser S place place')).electionKeys.get? g.id =
        some g.announcement.election ∧
      (disputed g.announcement (accuser S place place')).transportKeys.get? g.id =
        some g.announcement.transport ∧
      (disputed g.announcement (accuser S place place')).roster (some g.id) =
        some [accuser S place place'] := by
  have ho : (1 : UInt64) ≠ 0 := by decide
  have hq : (⟨"ceremony", 2, 2⟩ : Terms).quorum ≠ 0 := by decide
  obtain ⟨g, hg⟩ := Guardian.exists_create (S := S) "a" ho hq (⟨0⟩ : SplitMix)
  obtain ⟨p, secret, rfl, -⟩ := Guardian.of_create hg
  exact ⟨_, ⟨_, _, _, _, _, hg⟩, rfl, rfl, rfl, rfl⟩

end Disputed

/-- The answer to an accuser with one place is upheld. -/
theorem honest_answer_upheld :
    ∃ (g g₂ : Guardian Suite.exponents) (d : Disclosure Suite.exponents),
      g.CreatedFor ⟨"ceremony", 2, 2⟩ ∧
      ((g.learn (accuser _ 2 2)).deal (⟨1⟩ : SplitMix)).1 = .ok g₂ ∧
      g₂.disclose "b" = some d ∧
      ((disputed g.announcement (accuser _ 2 2)).judge d).good = true := by
  obtain ⟨g, hg, hid, hown, -, hroster⟩ := exists_disputed 2 2 Suite.exponents
  have has : g.Learns [accuser _ 2 2] (g.learn (accuser _ 2 2)) := Guardian.Learns.refl.learn _
  obtain ⟨g₂, hd, hall⟩ := answers_upheld_iff hg hroster has Suite.lawful_exponents
    (reachable_disputed _ 2 2) hown (⟨1⟩ : SplitMix)
  have hk := get?_electionKeys_accuser g.announcement 2 2
  have ht := get?_transportKeys_accuser g.announcement 2 2
  obtain ⟨k, t, d, hk', ht', hdisclose, hjudge⟩ :=
    hall "b" (Mediator.mem_announcers.mpr (Ledger.mem_keys_of_get? hk)) (by rw [hid]; decide)
  obtain rfl := Option.some.inj (hk.symm.trans hk')
  obtain rfl := Option.some.inj (ht.symm.trans ht')
  exact ⟨g, g₂, d, hg, hd, hdisclose, by rw [hjudge]; rfl⟩

/-- The answer to an accuser who announced two places is rejected. -/
theorem honest_answer_rejected :
    ∃ (g g₂ : Guardian Suite.standard) (d : Disclosure Suite.standard),
      g.CreatedFor ⟨"ceremony", 2, 2⟩ ∧
      (disputed g.announcement (accuser _ 2 3)).electionKeys.get? g.id =
        some g.announcement.election ∧
      (disputed g.announcement (accuser _ 2 3)).transportKeys.get? g.id =
        some g.announcement.transport ∧
      (disputed g.announcement (accuser _ 2 3)).roster (some g.id) = some [accuser _ 2 3] ∧
      ((g.learn (accuser _ 2 3)).deal (⟨1⟩ : SplitMix)).1 = .ok g₂ ∧
      g₂.disclose "b" = some d ∧
      ((disputed g.announcement (accuser _ 2 3)).judge d).good = false := by
  obtain ⟨g, hg, hid, hown, hown', hroster⟩ := exists_disputed 2 3 Suite.standard
  have has : g.Learns [accuser _ 2 3] (g.learn (accuser _ 2 3)) := Guardian.Learns.refl.learn _
  obtain ⟨g₂, hd, hall⟩ :=
    exists_answers hg hroster has (reachable_disputed _ 2 3) (⟨1⟩ : SplitMix)
  have hk := get?_electionKeys_accuser g.announcement 2 3
  have ht := get?_transportKeys_accuser g.announcement 2 3
  obtain ⟨k, t, s, -, ht', hdisclose, -, hrecipient, horder⟩ :=
    hall "b" (Mediator.mem_announcers.mpr (Ledger.mem_keys_of_get? hk)) (by rw [hid]; decide)
  obtain rfl := Option.some.inj (ht.symm.trans ht')
  refine ⟨g, g₂, s.disclose g.polynomial, hg, hown, hown', hroster, hd, hdisclose, ?_⟩
  rw [Bool.eq_false_iff]
  intro hgood
  -- the place of the share is the third one, and that of the election key is the second
  obtain ⟨-, -, k', hk', hplace⟩ := Mediator.judge_good_iff.mp hgood
  rw [SealedShare.disclose, hrecipient, hk] at hk'
  cases hk'
  rw [SealedShare.disclose, horder] at hplace
  exact absurd (show (2 : UInt64) = 3 from hplace) (by decide)

end Guardianship
