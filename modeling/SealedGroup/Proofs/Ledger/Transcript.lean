import Mathlib.Data.List.Induction

/-!
# Transcripts

A ledger that is called again and again answers each call and changes. Its *transcript* is the
list of the calls with the answers that were given to them, the first call first. It is all that
somebody outside ever sees of a ledger, and so it is what a specification of a ledger should
speak of: a promise about the table inside would bind the implementation, and would be of no use
to anybody who cannot look into it.

A relation between a transcript and a ledger that holds at the start, and that each call keeps,
holds after any calls (`Transcript.invariant`). This is how a ledger is shown to remember what
was said to it. The relation says which reading of the transcript each part of the ledger is;
the answers, which are computed from the parts, are then readings of the transcript as well.

The induction is on the calls from their end, since it is the last call that meets the ledger
which the relation speaks of, and it is done here once, for any type of ledger, of calls and of
answers. The two ledgers of the service, that of key pairs and that of groups, both take it from
here. For what holds between an earlier and a later state there is a second induction, over the
later calls alone (`Transcript.afterwards_related`).
-/

namespace SealedGroup

namespace Transcript

variable {L C A : Type} (serve : L → C → A × L)

/-- The ledger after some calls. -/
def afterwards (ledger : L) (calls : List C) : L :=
  calls.foldl (fun ledger call => (serve ledger call).2) ledger

/-- **The calls with their answers**, the first one first. -/
def transcript (ledger : L) : List C → List (C × A)
  | [] => []
  | call :: rest => (call, (serve ledger call).1) :: transcript (serve ledger call).2 rest

theorem afterwards_append (ledger : L) (calls more : List C) :
    afterwards serve ledger (calls ++ more) =
      afterwards serve (afterwards serve ledger calls) more :=
  List.foldl_append

/-- What was answered stays in the transcript, whatever is called later. -/
theorem transcript_append (ledger : L) (calls more : List C) :
    transcript serve ledger (calls ++ more) =
      transcript serve ledger calls ++ transcript serve (afterwards serve ledger calls) more := by
  induction calls generalizing ledger with
  | nil => rfl
  | cons call rest ih =>
    rw [List.cons_append, transcript, transcript, ih]
    rfl

/-- The calls of a transcript are those that were made. -/
theorem calls_transcript (ledger : L) (calls : List C) :
    (transcript serve ledger calls).map Prod.fst = calls := by
  induction calls generalizing ledger with
  | nil => rfl
  | cons call rest ih => rw [transcript, List.map_cons, ih]

/-- What is read off a transcript entry by entry grows by what the last entry gives. -/
theorem filterMap_concat {B : Type} (f : C × A → Option B) (log : List (C × A))
    (entry : C × A) : (log ++ [entry]).filterMap f = log.filterMap f ++ (f entry).toList := by
  rw [List.filterMap_append]
  cases h : f entry with
  | none => rw [List.filterMap_cons_none h]; rfl
  | some b => rw [List.filterMap_cons_some h]; rfl

variable {serve}

/-- **What each call keeps holds after all calls**, of the transcript and the ledger. -/
theorem invariant {start : L} {R : List (C × A) → L → Prop} (hstart : R [] start)
    (hcall : ∀ log ledger call, R log ledger →
      R (log ++ [(call, (serve ledger call).1)]) (serve ledger call).2) (calls : List C) :
    R (transcript serve start calls) (afterwards serve start calls) := by
  -- the last call is the one that the step is about, so the induction is from the end
  induction calls using List.reverseRecOn with
  | nil => exact hstart
  | append_singleton calls call ih =>
    rw [transcript_append, afterwards_append]
    exact hcall _ _ call ih

/-- **A relation that each call keeps** holds between a ledger and what later calls make of
it. -/
theorem afterwards_related {R : L → L → Prop} (hrefl : ∀ ledger, R ledger ledger)
    (htrans : ∀ {l m n}, R l m → R m n → R l n)
    (hcall : ∀ ledger call, R ledger (serve ledger call).2) (ledger : L) (calls : List C) :
    R ledger (afterwards serve ledger calls) := by
  induction calls generalizing ledger with
  | nil => exact hrefl ledger
  | cons call rest ih => exact htrans (hcall ledger call) (ih _)

end Transcript

end SealedGroup
