import SealedGroup.Demo.Run
import SealedGroup.Proofs.Edit.Removal

/-!
# Who takes part in a demo

A demo draws an account for everyone who takes part, so that all of them can be encrypted to.
How many others there are besides us, and who is the administrator, depends on its arguments
(`Demo.cast_stage`). If we act as the administrator, that is who we are; if we act as a member,
it is the first of the others; and if there are no others, it is a stranger to the group, drawn
for that purpose alone.

Any of the others may be removed, but for the administrator. If no account is drawn twice
(`Stage.Distinct`), as many of them are removed as asked for, as far as they can be spared
(`Stage.Distinct.length_removable`); and the administrator is not among them, be it one of the
others or ourselves (`Stage.Distinct.admin_not_mem_removable`).

## Counting

The demo picks those who are removed from a list, by passing over us and the administrator and
taking as many as asked for. That this gives the right number rests on one fact, which says what
is left of the others once the administrator is passed over: all of them, or all but the first
(`Stage.Distinct.filter_others`). Everything that is said of lengths follows from it.

Distinctness is asked of all accounts at once, those of the new members among them, since a new
member who is there already would be no new member; and it is decidable, so that it can be
checked of any given draws. Nothing else is asked of the draws here.
-/

namespace SealedGroup

/-- Whoever can be encrypted to has a standard identifier. -/
theorem Identifier.Usable.isStandard {id : Identifier} (h : id.Usable) : id.isStandard = true := by
  obtain ⟨key, rfl⟩ := Identifier.usable_iff.mp h
  exact isStandard_ofPublicKey key

namespace Demo

/-! ## Drawing accounts -/

/-- An account is drawn together with its key. -/
theorem usable_account (entropy : Entropy) : (account.run entropy).1.Usable :=
  Identifier.usable_iff.mpr ⟨_, rfl⟩

theorem length_accounts (n : Nat) (entropy : Entropy) :
    ((accounts n).run entropy).1.length = n := by
  induction n generalizing entropy with
  | zero => rfl
  | succ n ih => exact congrArg (· + 1) (ih (account.run entropy).2)

theorem usable_of_mem_accounts {n : Nat} {entropy : Entropy} {id : Identifier}
    (h : id ∈ ((accounts n).run entropy).1) : id.Usable := by
  induction n generalizing entropy with
  | zero => cases h
  | succ n ih =>
    have hcons : id ∈ (account.run entropy).1 :: ((accounts n).run (account.run entropy).2).1 := h
    rcases List.mem_cons.mp hcons with rfl | hrest
    · exact usable_account entropy
    · exact ih hrest

/-- **Those who take part in a demo** with the given arguments. -/
structure Stage.Cast (args : Arguments) (s : Stage) : Prop where
  usable_members : ∀ id ∈ s.members, id.Usable
  usable_group : s.group.Usable
  length_others : s.others.length = args.members
  /-- Acting as the administrator, that is who we are. -/
  admin_eq_us : args.role = .admin → s.admin = s.us
  /-- Acting as a member, we leave that to the first of the others. -/
  head?_eq_admin : args.role = .member → s.others ≠ [] → s.others.head? = some s.admin

/-- **Whom a demo draws.** -/
theorem cast_stage (args : Arguments) (entropy : Entropy) :
    ((stage args).run entropy).1.Cast args := by
  obtain ⟨groupName, members, role, rename, add, remove, failSends⟩ := args
  have hus := usable_account entropy
  have hlength := length_accounts members (account.run entropy).2
  have hothers : ∀ id ∈ ((accounts members).run (account.run entropy).2).1, id.Usable :=
    fun _ => usable_of_mem_accounts
  have hgroup := usable_account ((accounts members).run (account.run entropy).2).2
  have hmembers := List.forall_mem_append.mpr ⟨hothers, List.forall_mem_singleton.mpr hus⟩
  cases role with
  | admin => exact ⟨hmembers, hgroup, hlength, fun _ => rfl, nofun⟩
  | member =>
    -- the administrator is one of the others, if there are any
    unfold stage
    rw [StateT.run_bind]
    generalize account.run entropy = drawn at *
    obtain ⟨us, entropy⟩ := drawn
    change Stage.Cast _ (StateT.run _ entropy : Id (Stage × Entropy)).1
    rw [StateT.run_bind]
    generalize (accounts members).run entropy = drawn at *
    obtain ⟨others, entropy⟩ := drawn
    cases others with
    | nil => exact ⟨hmembers, hgroup, hlength, nofun, fun _ hnone => absurd rfl hnone⟩
    | cons first rest => exact ⟨hmembers, hgroup, hlength, nofun, fun _ _ => rfl⟩

/-! ## Those who may be removed -/

/-- **How many of the others can be spared**: all of them, or all but the administrator. -/
def Arguments.spare (args : Arguments) : Nat :=
  match args.role with
  | .admin => args.members
  | .member => args.members - 1

namespace Stage

variable {args : Arguments} {s : Stage} {fresh : List Identifier} {id : Identifier}

/-- **Every account that is drawn** for a demo, those of the new members among them. If we are a
member and there are no others, the administrator is a stranger to the group. -/
def drawn (args : Arguments) (s : Stage) (fresh : List Identifier) : List Identifier :=
  s.members ++ fresh ++ s.group ::
    if args.role = .member ∧ s.others = [] then [s.admin] else []

/-- **No account is drawn twice.** -/
def Distinct (args : Arguments) (s : Stage) (fresh : List Identifier) : Prop :=
  (s.drawn args fresh).Nodup

instance : Decidable (s.Distinct args fresh) :=
  inferInstanceAs (Decidable (s.drawn args fresh).Nodup)

theorem mem_members : id ∈ s.members ↔ id ∈ s.others ∨ id = s.us := by
  rw [members, List.mem_append, List.mem_singleton]

theorem us_mem_members : s.us ∈ s.members :=
  mem_members.mpr (.inr rfl)

theorem mem_others_of_mem_removable (h : id ∈ s.removable args) : id ∈ s.others :=
  List.mem_of_mem_filter (List.mem_of_mem_take h)

/-- Whoever is not removed stays. -/
theorem mem_remaining : id ∈ s.remaining args ↔ id ∈ s.members ∧ id ∉ s.removable args := by
  simp [remaining]

namespace Distinct

variable (h : s.Distinct args fresh)

include h

theorem nodup_members : s.members.Nodup :=
  h.of_append_left.of_append_left

theorem nodup_fresh : fresh.Nodup :=
  h.of_append_left.of_append_right

theorem nodup_others : s.others.Nodup :=
  h.nodup_members.of_append_left

/-- Nobody is new who is there already. -/
theorem not_mem_fresh (hmem : id ∈ s.members) : id ∉ fresh :=
  fun hfresh => List.disjoint_of_nodup_append h.of_append_left hmem hfresh

/-- We are none of the others. -/
theorem us_not_mem_others : s.us ∉ s.others := fun hmem =>
  List.disjoint_of_nodup_append h.nodup_members hmem (List.mem_singleton.mpr rfl)

/-- **Acting as a member, we are not the administrator.** -/
theorem admin_ne_us (hcast : s.Cast args) (hrole : args.role = .member) : s.admin ≠ s.us := by
  intro heq
  by_cases hothers : s.others = []
  · have hstranger : s.admin ∈ s.group ::
        if args.role = .member ∧ s.others = [] then [s.admin] else [] := by
      rw [if_pos ⟨hrole, hothers⟩]
      exact List.mem_cons_of_mem _ (List.mem_singleton.mpr rfl)
    have hus : s.admin ∈ s.members ++ fresh := List.mem_append_left _ (heq ▸ us_mem_members)
    exact List.disjoint_of_nodup_append h hus hstranger
  · have hfirst := List.mem_of_mem_head? (hcast.head?_eq_admin hrole hothers)
    exact h.us_not_mem_others (heq ▸ hfirst)

/-- **Whoever may be removed** is one of the others, and not the first of them if that is the
administrator. -/
theorem filter_others :
    s.others.filter (fun id => args.role == .admin || s.others.head? != some id) =
      match args.role with
      | .admin => s.others
      | .member => s.others.tail := by
  have hothers := h.nodup_others
  cases args.role with
  | admin => exact List.filter_eq_self.mpr fun _ _ => rfl
  | member =>
    generalize s.others = others at hothers ⊢
    cases others with
    | nil => rfl
    | cons first rest =>
      have hfirst := (List.nodup_cons.mp hothers).1
      rw [List.filter_cons_of_neg (by simp)]
      refine List.filter_eq_self.mpr fun id hmem => ?_
      have hne : first ≠ id := fun heq => hfirst (heq ▸ hmem)
      simpa using hne

theorem nodup_removable : (s.removable args).Nodup :=
  (h.nodup_others.filter _).sublist (List.take_sublist ..)

/-- **As many are removed as asked for**, as far as they can be spared. -/
theorem length_removable (hcast : s.Cast args) :
    (s.removable args).length = min args.remove args.spare := by
  rw [removable, List.length_take, h.filter_others, Arguments.spare, ← hcast.length_others]
  cases args.role with
  | admin => rfl
  | member => rw [List.length_tail]

theorem us_not_mem_removable : s.us ∉ s.removable args :=
  fun hmem => h.us_not_mem_others (mem_others_of_mem_removable hmem)

/-- **The administrator is not removed.** -/
theorem admin_not_mem_removable (hcast : s.Cast args) : s.admin ∉ s.removable args := by
  cases hrole : args.role with
  | admin =>
    rw [hcast.admin_eq_us hrole]
    exact h.us_not_mem_removable
  | member =>
    intro hmem
    -- the first of the others is left out
    obtain ⟨hother, hkept⟩ := List.mem_filter.mp (List.mem_of_mem_take hmem)
    rw [hrole, hcast.head?_eq_admin hrole (List.ne_nil_of_mem hother)] at hkept
    simp at hkept

end Distinct

end Stage

end Demo

end SealedGroup
