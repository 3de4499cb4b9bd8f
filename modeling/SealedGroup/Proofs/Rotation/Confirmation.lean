import SealedGroup.Proofs.Rotation.Steps
import SealedGroup.Proofs.Service.Filing

/-!
# Confirmations that fail

A confirmation does three things in a row: it files the pair of its attempt, it takes the
attempt out of the registry, and it commits the group. The two ledgers may fail, each at its own
call, and `Rotation.Confirmation` lists what a confirmation comes to, over any backend. The list
is complete (`Rotation.Confirmation.total`) and its entries exclude one another, so that a proof
about confirmations is one about the list and never looks at the service again.

If the pair could not be filed, nothing was done, and whoever confirms again has the same
chances. But if it was filed and the group could not be committed, the attempt is gone: the pair
is in the history of its group, and every later confirmation is told that the attempt was
superseded. So a failed confirmation can be repeated exactly if it failed at the first ledger
(`Rotation.failed_confirmation_repeats_iff_unfiled`).

## What can still become of an attempt

Whether an attempt can still be confirmed is asked of the registry alone, and of any backend
that it may later meet. An attempt is *lost* if each of them answers that it was superseded, and
does nothing; it *stands* if each of them commits it whose ledgers take their part. A registered
attempt stands, and one whose group has no attempt is lost (`Rotation.stands_of_current`,
`Rotation.lost_of_get?_eq_none`).

That the pair was filed is said of the histories, and so the backend has to file what it is
given (`Backend.Files`). How it keeps its groups is left open.
-/

namespace SealedGroup

namespace Rotation

variable {σ : Type} {backend : Backend σ} {pending : Rotation.Pending} {r : InFlight} {s : σ}

/-- **What a confirmation comes to**: its result, and the world after it. -/
inductive Confirmation (backend : Backend σ) (pending : Rotation.Pending) (r : InFlight) (s : σ) :
    Except ServiceError Rotation.Outcome → World σ → Prop
  /-- The attempt is not the current one of its group, and the ledgers are not asked. -/
  | stale (hstale : r.isCurrent pending.groupId pending.attempt = false) :
      Confirmation backend pending r s (.ok .superseded) ⟨r, s⟩
  /-- The pair cannot be filed. -/
  | unfiled {pair : KeyPair} {cause : LedgerError} {s' : σ}
      (hcurrent : r.get? pending.groupId = some ⟨pending.attempt, pair⟩)
      (happend : backend.appendPair pending.groupId pair s = (.error cause, s')) :
      Confirmation backend pending r s (.error (.ledger cause)) ⟨r, s'⟩
  /-- The pair is filed, and the group cannot be committed. -/
  | uncommitted {pair : KeyPair} {new : Bool} {cause : LedgerError} {s' s'' : σ}
      (hcurrent : r.get? pending.groupId = some ⟨pending.attempt, pair⟩)
      (happend : backend.appendPair pending.groupId pair s = (.ok new, s'))
      (hcommit : backend.commit pending.groupId s' = (.error cause, s'')) :
      Confirmation backend pending r s (.error (.ledger cause)) ⟨r.erase pending.groupId, s''⟩
  /-- The pair is filed, and the group is committed. -/
  | committed {pair : KeyPair} {new : Bool} {s' s'' : σ}
      (hcurrent : r.get? pending.groupId = some ⟨pending.attempt, pair⟩)
      (happend : backend.appendPair pending.groupId pair s = (.ok new, s'))
      (hcommit : backend.commit pending.groupId s' = (.ok (), s'')) :
      Confirmation backend pending r s
        (.ok (.committed pending.pair.publicText pending.recipients))
        ⟨r.erase pending.groupId, s''⟩

/-- Settling the registered attempt files its pair. -/
theorem exec_settle_of_current {pair : KeyPair}
    (h : r.get? pending.groupId = some ⟨pending.attempt, pair⟩) :
    (settle backend pending).exec ⟨r, s⟩ =
      match backend.appendPair pending.groupId pair s with
      | (.ok _, s') => (.ok true, ⟨r.erase pending.groupId, s'⟩)
      | (.error cause, s') => (.error (.ledger cause), ⟨r, s'⟩) := by
  rw [exec_settle, InFlight.settle_of_current h]
  simp only [storePair, Bind.bind, StateT.bind]
  rcases backend.appendPair pending.groupId pair s with ⟨cause | new, s'⟩ <;> rfl

/-- Once its pair is filed, a confirmation commits the group. -/
theorem exec_confirm_of_filed {pair : KeyPair} {new : Bool} {s' : σ}
    (h : r.get? pending.groupId = some ⟨pending.attempt, pair⟩)
    (happend : backend.appendPair pending.groupId pair s = (.ok new, s')) :
    (confirm backend pending).exec ⟨r, s⟩ =
      (Act.ledger (backend.commit pending.groupId) >>= fun _ =>
        pure (.committed pending.pair.publicText pending.recipients)).exec
          ⟨r.erase pending.groupId, s'⟩ := by
  have hsettle : (settle backend pending).exec ⟨r, s⟩ = _ := exec_settle_of_current h
  rw [happend] at hsettle
  unfold confirm
  rw [Act.exec_bind_of_ok hsettle]
  rfl

namespace Confirmation

variable {result : Except ServiceError Outcome} {after : World σ}

/-- What a confirmation comes to is what happens. -/
theorem exec_eq (h : Confirmation backend pending r s result after) :
    (confirm backend pending).exec ⟨r, s⟩ = (result, after) := by
  cases h with
  | stale hstale =>
    unfold confirm
    rw [Act.exec_bind_of_ok (show (settle backend pending).exec ⟨r, s⟩ = (.ok false, ⟨r, s⟩) by
      rw [exec_settle, InFlight.settle_of_stale hstale]
      rfl)]
    rfl
  | unfiled hcurrent happend =>
    have hsettle : (settle backend pending).exec ⟨r, s⟩ = _ := exec_settle_of_current hcurrent
    rw [happend] at hsettle
    exact Act.exec_bind_of_error hsettle
  | uncommitted hcurrent happend hcommit =>
    rw [exec_confirm_of_filed hcurrent happend]
    exact Act.exec_bind_of_error (Act.exec_ledger_of_error hcommit)
  | committed hcurrent happend hcommit =>
    rw [exec_confirm_of_filed hcurrent happend, Act.exec_bind_of_ok (Act.exec_ledger_of_ok hcommit)]
    rfl

/-- Every confirmation comes to something. -/
theorem total (backend : Backend σ) (pending : Rotation.Pending) (r : InFlight) (s : σ) :
    ∃ result after, Confirmation backend pending r s result after := by
  cases hcurrent : r.isCurrent pending.groupId pending.attempt with
  | false => exact ⟨_, _, .stale hcurrent⟩
  | true =>
    obtain ⟨pair, hget⟩ := InFlight.isCurrent_iff.mp hcurrent
    rcases happend : backend.appendPair pending.groupId pair s with ⟨cause | new, s'⟩
    · exact ⟨_, _, .unfiled hget happend⟩
    · rcases hcommit : backend.commit pending.groupId s' with ⟨cause | _, s''⟩
      · exact ⟨_, _, .uncommitted hget happend hcommit⟩
      · exact ⟨_, _, .committed hget happend hcommit⟩

/-- **Every confirmation comes to one of these**, and to the one that its calls decide. -/
theorem of_exec {world : World σ} (hexec : (confirm backend pending).exec world = (result, after)) :
    Confirmation backend pending world.inFlight world.outside result after := by
  obtain ⟨result', after', h⟩ := total backend pending world.inFlight world.outside
  cases hexec.symm.trans h.exec_eq
  exact h

end Confirmation

/-! ## Whether an attempt can still be confirmed -/

/-- **The attempt is lost**: over any backend, whoever confirms it is told that it was
superseded, and nothing is done. -/
def Lost (pending : Rotation.Pending) (r : InFlight) : Prop :=
  ∀ {σ : Type} (backend : Backend σ) (s : σ),
    (confirm backend pending).exec ⟨r, s⟩ = (.ok .superseded, ⟨r, s⟩)

/-- **The attempt stands**, with its pair: over any backend, whoever confirms it while both
ledgers take their part commits it. -/
def Stands (pending : Rotation.Pending) (pair : KeyPair) (r : InFlight) : Prop :=
  ∀ {σ : Type} {backend : Backend σ} {s s'' : σ}, backend.Accepts pending.groupId pair s s'' →
    (confirm backend pending).exec ⟨r, s⟩ =
      (.ok (.committed pending.pair.publicText pending.recipients),
        ⟨r.erase pending.groupId, s''⟩)

/-- An attempt is lost once its group has none. -/
theorem lost_of_get?_eq_none (h : r.get? pending.groupId = none) : Lost pending r := by
  intro σ backend s
  refine (Confirmation.stale (InFlight.isCurrent_eq_false_iff.mpr fun entry hget => ?_)).exec_eq
  cases h.symm.trans hget

/-- The registered attempt of a group stands. -/
theorem stands_of_current {pair : KeyPair}
    (h : r.get? pending.groupId = some ⟨pending.attempt, pair⟩) : Stands pending pair r := by
  rintro σ backend s s'' ⟨new, s', happend, hcommit⟩
  exact (Confirmation.committed h happend hcommit).exec_eq

/-! ## Confirming again -/

/-- **A failed confirmation can be repeated exactly if its pair was not filed.** It fails at one
of the two ledgers. If it could not file the pair, the registry and the histories are what they
were, and as long as the attempt is registered, a confirmation while both ledgers take their
part commits it and makes its pair, if new, the current one of the group. If the pair was filed,
then the attempt is gone from the registry, and lost. -/
theorem failed_confirmation_repeats_iff_unfiled {histories : σ → KeyHistories}
    (hfiles : backend.Files histories) {world after : World σ} {error : ServiceError}
    (hexec : (confirm backend pending).exec world = (.error error, after)) :
    ∃ pair cause, error = .ledger cause ∧
      world.inFlight.get? pending.groupId = some ⟨pending.attempt, pair⟩ ∧
      (after.inFlight = world.inFlight ↔
        (backend.appendPair pending.groupId pair world.outside).1 = .error cause) ∧
      (after.inFlight = world.inFlight → histories after.outside = histories world.outside ∧
        ∀ (later : World σ) (s : σ),
          later.inFlight.get? pending.groupId = after.inFlight.get? pending.groupId →
          backend.Accepts pending.groupId pair later.outside s →
            (confirm backend pending).exec later =
              (.ok (.committed pending.pair.publicText pending.recipients),
                ⟨later.inFlight.erase pending.groupId, s⟩) ∧
            (pair.toRow ∉ histories later.outside pending.groupId →
              ∀ current t, backend.currentPair pending.groupId s = (.ok current, t) →
                current = some pair)) ∧
      (after.inFlight ≠ world.inFlight →
        after.inFlight = world.inFlight.erase pending.groupId ∧
        histories after.outside = (histories world.outside).file pending.groupId pair ∧
        Lost pending after.inFlight) := by
  cases Confirmation.of_exec hexec with
  | @unfiled pair cause s' hcurrent happend =>
    refine ⟨pair, cause, rfl, hcurrent, iff_of_true rfl (congrArg Prod.fst happend), ?_,
      fun hne => absurd rfl hne⟩
    refine fun _ => ⟨hfiles.refused happend, fun later s hsame haccepts => ?_⟩
    have hstands : Stands pending pair later.inFlight := stands_of_current (hsame.trans hcurrent)
    exact ⟨hstands haccepts, fun hnew current t hread =>
      hfiles.current_of_accepts haccepts hnew hread⟩
  | @uncommitted pair new cause s' s'' hcurrent happend hcommit =>
    have hgone : (world.inFlight.erase pending.groupId).get? pending.groupId = none :=
      InFlight.get?_erase_self ..
    -- the registry is not what it was, since the attempt is missing
    have hne : world.inFlight.erase pending.groupId ≠ world.inFlight := by
      intro hsame
      rw [hsame, hcurrent] at hgone
      cases hgone
    refine ⟨pair, cause, rfl, hcurrent, iff_of_false hne ?_, fun hsame => absurd hsame hne,
      fun _ => ⟨rfl, hfiles.filed_of_commit happend hcommit, lost_of_get?_eq_none hgone⟩⟩
    rw [happend]
    exact nofun

/-- Our group gets its first pair, and the ledger of groups fails once: the pair is on file, and
whoever confirms again is told that the attempt was superseded. -/
theorem failed_confirmation_repeats_iff_unfiled_of_commit :
    let backend := (Ledgers.backend Environment.still).armed
    let pair := KeyPair.ofSecret (Scalar.ofNat 1)
    let pending : Rotation.Pending := ⟨StoredGroup.sample.id, ⟨0⟩, pair,
      Message.create StoredGroup.sample.id "" 0 (.keyPair []), 1⟩
    let world : World (Armed (Local Unit)) :=
      ⟨InFlight.empty.register StoredGroup.sample.id ⟨0⟩ pair,
        (Armed.unarmed ⟨Ledgers.sample, ()⟩).setFault .commit (some ⟨0, .backend "disk full"⟩)⟩
    ∃ after, (confirm backend pending).exec world =
        (.error (.ledger (.backend "disk full")), after) ∧
      after.inFlight ≠ world.inFlight ∧
      after.outside.outside.ledgers.keys.history StoredGroup.sample.id = [pair.toRow] ∧
      (confirm backend pending).exec after = (.ok .superseded, after) := by
  intro backend pair pending world
  rcases hexec : (confirm backend pending).exec world with ⟨result, after⟩
  have hresult : result = .error (.ledger (.backend "disk full")) := by
    have hfails : ((confirm backend pending).exec world).1 =
      .error (.ledger (.backend "disk full")) := rfl
    rwa [hexec] at hfails
  subst hresult
  obtain ⟨pair', cause, _, hcurrent, hrepeats, _, hlost⟩ :=
    failed_confirmation_repeats_iff_unfiled (Ledgers.files Environment.still).armed hexec
  obtain rfl : pair' = pair := by
    cases hcurrent
    rfl
  have hne : after.inFlight ≠ world.inFlight := by
    rw [Ne, hrepeats]
    exact nofun
  obtain ⟨_, hfiled, hgone⟩ := hlost hne
  refine ⟨after, rfl, hne, ?_, hgone backend after.outside⟩
  rw [show after.outside.outside.ledgers.keys.history = _ from hfiled]
  exact KeyHistories.file_of_not_mem List.not_mem_nil

end Rotation

end SealedGroup
