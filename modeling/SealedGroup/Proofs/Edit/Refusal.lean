import SealedGroup.Proofs.Edit.Announcement

/-!
# Refused edits

An edit ends in an error exactly if `Service.refusal` gives one: the reasons listed there, in
that order, are the only ones, since nothing that comes after them can fail. And an edit that
ends in an error did nothing: the ledgers and the registry are what they were, and no message
was handed to the transport (`Service.edit_fails_iff_refused`).

The two halves come from different parts of an edit. That a refused edit does nothing is a
matter of its order: everything that is checked is checked before the first write. That no other
edit fails is a matter of the announcement, in which whatever goes wrong is entered into the
report. The ledgers have to be reachable for it, so that the latest pair of a group can be read,
and a group is found where it was filed.
-/

namespace SealedGroup

namespace Service

variable {ε : Type} (environment : Environment ε) (config : Config) (group : Identifier)
  (name : String) (members : List Identifier) (r : InFlight) {ledgers : Ledgers}

/-- **An edit fails exactly on its preconditions**, and then it has no effect;
in every other case it gives a report, whatever happens to its messages and to
its rotation. -/
theorem edit_fails_iff_refused (hledgers : ledgers.Reachable) (e : Recorded ε)
    {result : Except ServiceError EditReport} {world : World (Local (Recorded ε))}
    (hexec : (edit (Ledgers.backend environment.recorded) config group name members).exec
      ⟨r, ⟨ledgers, e⟩⟩ = (result, world)) :
    (∀ error, result = .error error ↔
      refusal config ledgers group name members = some error) ∧
    (refusal config ledgers group name members = none → ∃ report, result = .ok report) ∧
    ∀ error, result = .error error →
      world.outside.ledgers = ledgers ∧ world.inFlight = r ∧
        world.outside.environment.sends = e.sends := by
  cases hrefusal : refusal config ledgers group name members with
  | some reason =>
    obtain ⟨e', hquiet, hrefused⟩ := exec_edit_of_refusal environment.recorded r e hrefusal
    obtain ⟨rfl, rfl⟩ := Prod.mk.inj (hexec.symm.trans hrefused)
    refine ⟨fun error => ?_, nofun, fun _ _ => ⟨rfl, rfl, hquiet.recorded.1⟩⟩
    rw [Except.error.injEq, Option.some.injEq]
  | none =>
    obtain ⟨current, hallowed⟩ := refusal_eq_none_iff.mp hrefusal
    obtain ⟨report, after, hok, _⟩ :=
      exec_edit_ok environment.recorded config (r := r) (e := e) hledgers.sound hallowed
    obtain ⟨rfl, rfl⟩ := Prod.mk.inj (hexec.symm.trans hok)
    exact ⟨fun _ => ⟨nofun, nofun⟩, fun _ => ⟨report, rfl⟩, nofun⟩

/-- Whoever removes themselves is told that this is not the way to leave. -/
theorem edit_fails_iff_refused_of_self :
    Ledgers.sample.Reachable ∧
      ((edit (Ledgers.backend Environment.still.recorded) Config.sample StoredGroup.sample.id
          "friends" [Identifier.sample]).exec
        ⟨InFlight.empty, ⟨Ledgers.sample, ⟨(), [], []⟩⟩⟩).1 =
          .error (.preconditionFailed .selfRemoval) :=
  ⟨Ledgers.sample_reachable,
    ((edit_fails_iff_refused Environment.still Config.sample StoredGroup.sample.id "friends"
      [Identifier.sample] InFlight.empty Ledgers.sample_reachable ⟨(), [], []⟩ rfl).1 _).mpr
        (by decide +kernel)⟩

end Service

end SealedGroup
