import SealedGroup.Proofs.KeyPair.Unwrapping

/-!
# A batch of wrappers

A new pair reaches the members of a group in one message, with a wrapper for each of them. The
wrappers are made one after the other, and making one can fail; so there is the question of what
becomes of those that were made before. A batch of recipients is wrapped for as a whole. If all
of them stand for keys, then each is given a wrapper in its place that the secret behind it
opens to the pair (`Wrapper.Opens`); if some do not, then the first of them names the error, and
there are no wrappers at all (`Wrapper.batch_is_wrapped_or_refused`).

An identifier stands for a key if it is a standard one whose key bytes spell a point of the
curve. When it does not, it is one of these two that is missing, and the first is looked at
first (`Identifier.Faulty`). Neither `Identifier.Faulty` nor `Identifier.OnCurve` mentions the
function that looks a key up, so that a list of recipients can be judged without wrapping for
it.

## Recipients and wrappers

That wrappers match recipients one by one is `List.Forall₂`, and it is stronger than saying that
there are as many: it keeps the order, and it keeps repetitions, since a recipient who is listed
twice is given two wrappers, with coins drawn for each. Nothing is assumed of the coins. They
may be drawn from anywhere, and even be the same every time; whether a stranger can open a
wrapper is a question about the cipher that is not asked here.
-/

namespace SealedGroup

namespace Identifier

/-- The identifier is a standard one that spells a point of the curve. -/
def OnCurve (id : Identifier) : Prop :=
  id.isStandard = true ∧ ∃ key : PublicKey, id.body = key.compressed

/-- **What keeps an identifier from standing for a key.** -/
inductive Faulty (id : Identifier) : IdentifierError → Prop where
  | notStandard (hstandard : id.isStandard = false) : Faulty id (.notStandard id.text)
  | invalidCurvePoint (hstandard : id.isStandard = true)
      (hpoint : ∀ key : PublicKey, id.body ≠ key.compressed) :
      Faulty id (.invalidCurvePoint id.text)

variable {id : Identifier}

/-- A standard identifier is read by its key bytes. -/
theorem publicKey_of_isStandard (h : id.isStandard = true) {key : PublicKey} :
    id.publicKey = .ok key ↔ id.body = key.compressed := by
  unfold publicKey
  rw [if_pos h, ← PublicKey.ofCompressed?_eq_some_iff]
  cases PublicKey.ofCompressed? id.body <;> simp

/-- Only a standard identifier stands for a key. -/
theorem publicKey_of_not_isStandard (h : id.isStandard = false) :
    id.publicKey = .error (.notStandard id.text) := by
  simp [publicKey, h]

/-- **Usable identifiers** are the standard ones that spell a point of the curve. -/
theorem usable_iff_onCurve : id.Usable ↔ id.OnCurve := by
  cases h : id.isStandard with
  | true => simp only [Usable, OnCurve, h, publicKey_of_isStandard h, true_and]
  | false => simp [Usable, OnCurve, h, publicKey_of_not_isStandard h]

/-- A standard identifier that spells no point stands for no key. -/
theorem publicKey_of_offCurve (h : id.isStandard = true)
    (hpoint : ∀ key : PublicKey, id.body ≠ key.compressed) :
    id.publicKey = .error (.invalidCurvePoint id.text) := by
  cases hread : PublicKey.ofCompressed? id.body with
  | none => simp [publicKey, h, hread]
  | some q => exact absurd (PublicKey.compressed_of_ofCompressed? hread).symm (hpoint q)

/-- **An identifier stands for no key** exactly if it has a fault, and the fault says why. -/
theorem publicKey_eq_error_iff {cause : IdentifierError} :
    id.publicKey = .error cause ↔ id.Faulty cause := by
  constructor
  · intro herror
    cases h : id.isStandard with
    | false =>
      rw [publicKey_of_not_isStandard h] at herror
      exact Except.error.inj herror ▸ .notStandard h
    | true =>
      have hpoint : ∀ key : PublicKey, id.body ≠ key.compressed := fun key hbody => by
        rw [(publicKey_of_isStandard h).mpr hbody] at herror
        cases herror
      rw [publicKey_of_offCurve h hpoint] at herror
      exact Except.error.inj herror ▸ .invalidCurvePoint h hpoint
  · rintro (h | ⟨h, hpoint⟩)
    · exact publicKey_of_not_isStandard h
    · exact publicKey_of_offCurve h hpoint

/-- A list of identifiers is at fault if it splits at the first that is. -/
theorem firstFault_eq_some_iff {ids : List Identifier} {cause : IdentifierError} :
    firstFault ids = some cause ↔ ∃ front bad rest, ids = front ++ bad :: rest ∧
      (∀ id ∈ front, id.OnCurve) ∧ bad.Faulty cause := by
  constructor
  · intro h
    obtain ⟨front, bad, rest, hids, hfront, hbad⟩ := exists_of_firstFault h
    exact ⟨front, bad, rest, hids, fun id hmem => usable_iff_onCurve.mp (hfront id hmem),
      publicKey_eq_error_iff.mp hbad⟩
  · rintro ⟨front, bad, rest, rfl, hfront, hbad⟩
    induction front with
    | nil => exact firstFault_cons_of_error (publicKey_eq_error_iff.mpr hbad) rest
    | cons id front ih =>
      obtain ⟨hhead, hfront⟩ := List.forall_mem_cons.mp hfront
      obtain ⟨key, hkey⟩ := usable_iff_onCurve.mpr hhead
      rw [List.cons_append, firstFault_cons_of_ok hkey]
      exact ih hfront

end Identifier

namespace Wrapper

/-- **A wrapper is made for its recipient**: it names the recipient, and whoever holds a secret
to whose multiple of the base point the recipient belongs gets the pair out of it. -/
structure Opens (pair : KeyPair) (recipient : Identifier) (wrapper : Wrapper) : Prop where
  recipient_eq : wrapper.recipient = recipient
  unwrap : ∀ (secret : Scalar) (q : PublicKey),
    q.point = secret.val • PublicKey.generator.point → recipient = Identifier.ofPublicKey q →
      wrapper.unwrap secret.toBytes = .ok pair

/-- What was sealed for a recipient opens. -/
theorem Seals.opens {pair : KeyPair} {recipient : Identifier} {wrapper : Wrapper}
    (h : Seals pair recipient wrapper) : Opens pair recipient wrapper where
  recipient_eq := h.recipient_eq
  unwrap secret q hpoint hrecipient := by
    rw [Scalar.eq_publicKey_iff.mpr hpoint] at hrecipient
    exact unwrap_of_seals h hrecipient

section

variable {σ : Type} {draw : StateM σ Coins} {pair : KeyPair} {recipients : List Identifier} {s : σ}

/-- A batch is wrapped for exactly if each of its recipients stands for a key. -/
theorem exists_wrapAll_iff :
    (∃ wrappers, (wrapAll draw pair recipients s).1 = .ok wrappers) ↔
      ∀ id ∈ recipients, id.OnCurve := by
  simp only [← Identifier.usable_iff_onCurve, ← Identifier.firstFault_eq_none_iff]
  have hwrapped := wrapAll_eq draw pair recipients s
  cases hfault : Identifier.firstFault recipients with
  | none =>
    rw [hfault] at hwrapped
    obtain ⟨wrappers, hok, _⟩ := hwrapped
    exact iff_of_true ⟨wrappers, hok⟩ rfl
  | some cause =>
    rw [hfault] at hwrapped
    simp [show (wrapAll draw pair recipients s).1 = _ from hwrapped]

/-- The wrappers of a batch are made for its recipients, one for each and in their order. -/
theorem opens_of_wrapAll {wrappers : List Wrapper}
    (h : (wrapAll draw pair recipients s).1 = .ok wrappers) :
    List.Forall₂ (Opens pair) recipients wrappers := by
  rcases wrapAll_cases (Prod.ext h rfl) with ⟨_, _, herror⟩ | ⟨_, hok, hseals⟩
  · cases herror
  · cases hok
    exact hseals.imp fun _ _ => Seals.opens

/-- A batch is refused for the fault of the first recipient that has one. -/
theorem wrapAll_eq_error_iff {cause : KeyPairError} :
    (wrapAll draw pair recipients s).1 = .error cause ↔
      ∃ front bad rest fault, recipients = front ++ bad :: rest ∧
        (∀ id ∈ front, id.OnCurve) ∧ bad.Faulty fault ∧ cause = .invalidRecipient fault := by
  constructor
  · intro h
    obtain ⟨fault, hfault, hcause⟩ := firstFault_of_wrapAll (Prod.ext h rfl)
    obtain ⟨front, bad, rest, hsplit, hfront, hbad⟩ := Identifier.firstFault_eq_some_iff.mp hfault
    exact ⟨front, bad, rest, fault, hsplit, hfront, hbad, hcause⟩
  · rintro ⟨front, bad, rest, fault, hsplit, hfront, hbad, rfl⟩
    have hfault := Identifier.firstFault_eq_some_iff.mpr ⟨front, bad, rest, hsplit, hfront, hbad⟩
    have hwrapped := wrapAll_eq draw pair recipients s
    rw [hfault] at hwrapped
    exact hwrapped

end

/-- **A batch is wrapped or refused** as a whole. There are wrappers exactly if every recipient
is a standard identifier that spells a point of the curve, and then there is one for each
recipient, in the order of the recipients, that names it and gives the pair to whoever has the
secret behind it. Otherwise there is the error of the first recipient for which this is not so,
which says whether it is no standard identifier or spells no point, and no wrapper. -/
theorem batch_is_wrapped_or_refused {σ : Type} (draw : StateM σ Coins) (pair : KeyPair)
    (recipients : List Identifier) (s : σ) :
    ((∃ wrappers, (wrapAll draw pair recipients s).1 = .ok wrappers) ↔
      ∀ id ∈ recipients, id.OnCurve) ∧
    (∀ wrappers, (wrapAll draw pair recipients s).1 = .ok wrappers →
      List.Forall₂ (Opens pair) recipients wrappers) ∧
    ∀ cause, (wrapAll draw pair recipients s).1 = .error cause ↔
      ∃ front bad rest fault, recipients = front ++ bad :: rest ∧
        (∀ id ∈ front, id.OnCurve) ∧ bad.Faulty fault ∧ cause = .invalidRecipient fault :=
  ⟨exists_wrapAll_iff, fun _ => opens_of_wrapAll, fun _ => wrapAll_eq_error_iff⟩

end Wrapper

end SealedGroup
