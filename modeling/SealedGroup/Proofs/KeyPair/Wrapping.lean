import Mathlib.Data.List.Forall2
import SealedGroup.KeyPair.Wrapper
import SealedGroup.Proofs.Curve.Spelling

/-!
# Wrapping for many recipients

A recipient is usable if its identifier stands for a public key. Wrapping for a list of
recipients succeeds exactly if all of them are usable, and gives one wrapper for each, in their
order; otherwise it ends in the error of the first one that is not (`Wrapper.wrapAll_eq`). What
wrapping does to the state that its coins are drawn from is what drawing coins does
(`Wrapper.wrapAll_state`).

`Wrapper.wrapAll` draws its coins by an action that it is given, in whatever state they are
kept. That an action is run for each recipient, and in a state that the ones before it have
left, is why the statements here are about an arbitrary state, and why success does not depend
on it: whether there is an error is decided by `Identifier.firstFault`, which sees the
recipients alone.

## What a wrapper is

`Wrapper.Seals` says no more than how a wrapper was made, namely with some coins. This is what
an induction over the recipients gives, and what a rotation has to know of the message that it
sends. That a wrapper can be opened follows from it by `Wrapper.unwrap_of_seals`, and what it
means for an identifier to be usable, in terms of the curve, by `Identifier.usable_iff` and
`Identifier.usable_iff_onCurve`; neither is needed to reason about a batch.
-/

namespace SealedGroup

/-- The identifier stands for a key that can be encrypted to. -/
def Identifier.Usable (id : Identifier) : Prop :=
  ∃ key, id.publicKey = .ok key

/-- Why the first identifier without a usable key has none, if there is one. -/
def Identifier.firstFault : List Identifier → Option IdentifierError
  | [] => none
  | id :: rest =>
    match id.publicKey with
    | .error cause => some cause
    | .ok _ => firstFault rest

namespace Identifier

/-- The usable identifiers are the standard ones of public keys. -/
theorem usable_iff {id : Identifier} : id.Usable ↔ ∃ key, id = ofPublicKey key := by
  constructor
  · rintro ⟨key, hkey⟩
    exact ⟨key, eq_ofPublicKey hkey⟩
  · rintro ⟨key, rfl⟩
    exact ⟨key, publicKey_ofPublicKey key⟩

theorem firstFault_cons_of_error {id : Identifier} {cause : IdentifierError}
    (h : id.publicKey = .error cause) (rest : List Identifier) :
    firstFault (id :: rest) = some cause := by
  rw [firstFault, h]

theorem firstFault_cons_of_ok {id : Identifier} {key : PublicKey} (h : id.publicKey = .ok key)
    (rest : List Identifier) : firstFault (id :: rest) = firstFault rest := by
  rw [firstFault, h]

/-- There is no fault exactly if every identifier is usable. -/
theorem firstFault_eq_none_iff {ids : List Identifier} :
    firstFault ids = none ↔ ∀ id ∈ ids, id.Usable := by
  induction ids with
  | nil => exact ⟨fun _ _ h => absurd h List.not_mem_nil, fun _ => rfl⟩
  | cons id rest ih =>
    rw [List.forall_mem_cons, ← ih]
    cases h : id.publicKey with
    | error cause =>
      rw [firstFault_cons_of_error h]
      have hnot : ¬id.Usable := by
        rintro ⟨key, hkey⟩
        rw [h] at hkey
        cases hkey
      simp [hnot]
    | ok key =>
      rw [firstFault_cons_of_ok h]
      exact (and_iff_right ⟨key, h⟩).symm

/-- The fault is that of the first identifier that is not usable. -/
theorem exists_of_firstFault {ids : List Identifier} {cause : IdentifierError}
    (h : firstFault ids = some cause) :
    ∃ front bad rest, ids = front ++ bad :: rest ∧ (∀ id ∈ front, id.Usable) ∧
      bad.publicKey = .error cause := by
  induction ids with
  | nil => cases h
  | cons id rest ih =>
    cases hkey : id.publicKey with
    | error cause' =>
      rw [firstFault_cons_of_error hkey] at h
      cases h
      exact ⟨[], id, rest, rfl, fun _ hmem => absurd hmem List.not_mem_nil, hkey⟩
    | ok key =>
      rw [firstFault_cons_of_ok hkey] at h
      obtain ⟨front, bad, rest', rfl, hfront, hbad⟩ := ih h
      exact ⟨id :: front, bad, rest', rfl, List.forall_mem_cons.mpr ⟨⟨key, hkey⟩, hfront⟩, hbad⟩

end Identifier

namespace Wrapper

/-- The wrapper holds the pair for the recipient: it was made with some
coins. -/
def Seals (pair : KeyPair) (recipient : Identifier) (wrapper : Wrapper) : Prop :=
  ∃ coins, wrap pair recipient coins = .ok wrapper

/-- A wrapper names the recipient it was made for, who is usable. -/
theorem Seals.exists_key {pair : KeyPair} {recipient : Identifier} {wrapper : Wrapper}
    (h : Seals pair recipient wrapper) :
    ∃ key coins, recipient.publicKey = .ok key ∧
      wrapper = ⟨recipient, SealedBox.encrypt key coins (Frame.encode pair)⟩ := by
  obtain ⟨coins, hwrap⟩ := h
  unfold wrap at hwrap
  cases hkey : recipient.publicKey with
  | error cause => rw [hkey] at hwrap; cases hwrap
  | ok key =>
    rw [hkey] at hwrap
    cases hwrap
    exact ⟨key, coins, rfl, rfl⟩

theorem Seals.recipient_eq {pair : KeyPair} {recipient : Identifier} {wrapper : Wrapper}
    (h : Seals pair recipient wrapper) : wrapper.recipient = recipient := by
  obtain ⟨key, coins, _, rfl⟩ := h.exists_key
  rfl

/-- Wrappers made for a list of recipients name them, in their order. -/
theorem recipients_of_seals {pair : KeyPair} {recipients : List Identifier}
    {wrappers : List Wrapper} (h : List.Forall₂ (Seals pair) recipients wrappers) :
    wrappers.map recipient = recipients := by
  induction h with
  | nil => rfl
  | cons hhead _ ih => rw [List.map_cons, hhead.recipient_eq, ih]

/-- Each of the wrappers made for a list holds the pair for its recipient. -/
theorem seals_of_mem {pair : KeyPair} {recipients : List Identifier} {wrappers : List Wrapper}
    (h : List.Forall₂ (Seals pair) recipients wrappers) {wrapper : Wrapper}
    (hmem : wrapper ∈ wrappers) : Seals pair wrapper.recipient wrapper := by
  induction h with
  | nil => exact absurd hmem List.not_mem_nil
  | cons hhead _ ih =>
    rcases List.mem_cons.mp hmem with rfl | hmem
    · rwa [hhead.recipient_eq]
    · exact ih hmem

variable {σ : Type} (draw : StateM σ Coins) (pair : KeyPair)

/-- Wrapping for an unusable recipient ends at once. -/
theorem wrapAll_cons_of_error {recipient : Identifier} {cause : IdentifierError}
    (h : recipient.publicKey = .error cause) (rest : List Identifier) (s : σ) :
    wrapAll draw pair (recipient :: rest) s = (.error (.invalidRecipient cause), (draw s).2) := by
  simp only [wrapAll, bind, StateT.bind, wrap, h]
  rfl

/-- Wrapping for a usable recipient goes on with the rest. -/
theorem wrapAll_cons_of_ok {recipient : Identifier} {key : PublicKey}
    (h : recipient.publicKey = .ok key) (rest : List Identifier) (s : σ) :
    wrapAll draw pair (recipient :: rest) s =
      match wrapAll draw pair rest (draw s).2 with
      | (.ok wrappers, after) =>
        (.ok (⟨recipient, SealedBox.encrypt key (draw s).1 (Frame.encode pair)⟩ :: wrappers), after)
      | (.error e, after) => (.error e, after) := by
  simp only [wrapAll, bind, StateT.bind, wrap, h]
  rcases draw s with ⟨coins, after⟩
  dsimp only
  rcases wrapAll draw pair rest after with ⟨result, last⟩
  cases result <;> rfl

/-- **Wrapping is all or nothing**: one wrapper for each recipient, or the
error of the first one without a usable key. -/
theorem wrapAll_eq (recipients : List Identifier) (s : σ) :
    match Identifier.firstFault recipients with
    | some cause => (wrapAll draw pair recipients s).1 = .error (.invalidRecipient cause)
    | none => ∃ wrappers, (wrapAll draw pair recipients s).1 = .ok wrappers ∧
        List.Forall₂ (Seals pair) recipients wrappers := by
  -- by induction on the recipients, each time from where the last draw left the state
  induction recipients generalizing s with
  | nil => exact ⟨[], rfl, .nil⟩
  | cons recipient rest ih =>
    have hrest := ih (draw s).2
    cases hkey : recipient.publicKey with
    | error cause =>
      rw [Identifier.firstFault_cons_of_error hkey, wrapAll_cons_of_error draw pair hkey]
    | ok key =>
      rw [Identifier.firstFault_cons_of_ok hkey, wrapAll_cons_of_ok draw pair hkey]
      rcases hwrapped : wrapAll draw pair rest (draw s).2 with ⟨result, after⟩
      rw [hwrapped] at hrest
      cases hfault : Identifier.firstFault rest with
      | some cause =>
        rw [hfault] at hrest
        simp only at hrest
        rw [hrest]
      | none =>
        rw [hfault] at hrest
        obtain ⟨wrappers, hok, hseals⟩ := hrest
        simp only at hok
        rw [hok]
        refine ⟨_, rfl, .cons ⟨(draw s).1, ?_⟩ hseals⟩
        rw [wrap, hkey]

section

variable {draw : StateM σ Coins} {pair : KeyPair} {recipients : List Identifier} {s s' : σ}

/-- What wrapping gives tells whether each recipient has a usable key. -/
theorem wrapAll_cases {result : Except KeyPairError (List Wrapper)}
    (h : wrapAll draw pair recipients s = (result, s')) :
    (∃ cause, Identifier.firstFault recipients = some cause ∧
      result = .error (.invalidRecipient cause)) ∨
    ∃ wrappers, result = .ok wrappers ∧ List.Forall₂ (Seals pair) recipients wrappers := by
  have hwrapped := wrapAll_eq draw pair recipients s
  rw [h] at hwrapped
  cases hfault : Identifier.firstFault recipients with
  | some cause =>
    rw [hfault] at hwrapped
    exact .inl ⟨cause, rfl, hwrapped⟩
  | none =>
    rw [hfault] at hwrapped
    exact .inr hwrapped

/-- Wrapping fails at the first recipient without a usable key. -/
theorem firstFault_of_wrapAll {cause : KeyPairError}
    (h : wrapAll draw pair recipients s = (.error cause, s')) :
    ∃ fault, Identifier.firstFault recipients = some fault ∧ cause = .invalidRecipient fault := by
  rcases wrapAll_cases h with ⟨fault, hfault, herror⟩ | ⟨_, hok, _⟩
  · exact ⟨fault, hfault, Except.error.inj herror⟩
  · cases hok

/-- Whatever is wrapped holds the pair for its recipient. -/
theorem seals_of_wrapAll {wrappers : List Wrapper}
    (h : wrapAll draw pair recipients s = (.ok wrappers, s')) :
    ∀ wrapper ∈ wrappers, Seals pair wrapper.recipient wrapper := by
  rcases wrapAll_cases h with ⟨_, _, herror⟩ | ⟨_, hok, hseals⟩
  · cases herror
  · cases hok
    exact fun wrapper hmem => seals_of_mem hseals hmem

end

/-- **Wrapping draws coins** and does nothing else to the state. -/
theorem wrapAll_state {R : σ → σ → Prop} (hrefl : ∀ s, R s s)
    (htrans : ∀ {s t u}, R s t → R t u → R s u) (hdraw : ∀ s, R s (draw s).2)
    (recipients : List Identifier) (s : σ) : R s (wrapAll draw pair recipients s).2 := by
  induction recipients generalizing s with
  | nil => exact hrefl s
  | cons recipient rest ih =>
    cases hkey : recipient.publicKey with
    | error cause =>
      rw [wrapAll_cons_of_error draw pair hkey]
      exact hdraw s
    | ok key =>
      have hrest := ih (draw s).2
      rw [wrapAll_cons_of_ok draw pair hkey]
      rcases hwrapped : wrapAll draw pair rest (draw s).2 with ⟨result, after⟩
      rw [hwrapped] at hrest
      cases result <;> exact htrans (hdraw s) hrest

end Wrapper

end SealedGroup
