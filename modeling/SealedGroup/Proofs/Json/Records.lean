import SealedGroup.Json.Fields
import SealedGroup.Proofs.Json.Text

/-!
# Records read back

A written form is *faithful* if each of its values is spelled and is read back as what it was
written for. Such a form survives being written as text: the text of a value is read back as
that value, so that no two values share a text (`Json.Faithful.roundTrip`).

Faithfulness speaks of values and not of text, and so it composes. Words, octets and names are
faithful, a list is if its items are (`Json.Faithful.list`), and a record is if its fields are.
No form looks at characters again once `Json.Spelled.read?_compact` has done so for all of them.

## Fields

Of a record the reader finds the fields by their names, in whatever order they stand, and it
refuses a record in which a name occurs twice. The writer puts each name down once. So all that
finding a field takes is that the names of the record differ (`Json.fields?_record`), which is
decided by looking at them; of an optional field that was not written it is found that it is
absent. A variant is led by its name, which no other field may have, and its data are the fields
beside it (`Json.tagged?_record`). A variant without data is nothing but its name, and then it
is the names of the variants that have to differ.

Each of these lemmas is about lists of names and values, none is about a certain record. The
records themselves, and what each of them is made of, are the matter of
`written_forms_round_trip`.
-/

namespace SealedGroup

namespace Json

variable {n : Nat} {j : Json}

/-! ## The nesting of spelled values -/

/-- The fields of a record as an object holds them. -/
def named (fields : List (String × Json)) : List (Literal × Json) :=
  fields.map fun (name, value) => (.text name, value)

theorem named_cons (name : String) (value : Json) (fields : List (String × Json)) :
    named ((name, value) :: fields) = (.text name, value) :: named fields := rfl

theorem depthItems_le {items : List Json} (h : ∀ item ∈ items, item.depth ≤ n) :
    depthItems items ≤ n := by
  induction items with
  | nil => exact Nat.zero_le n
  | cons item items ih =>
    obtain ⟨hitem, hitems⟩ := List.forall_mem_cons.mp h
    exact Nat.max_le.mpr ⟨hitem, ih hitems⟩

theorem depthFields_le {fields : List (Literal × Json)} (h : ∀ field ∈ fields, field.2.depth ≤ n) :
    depthFields fields ≤ n := by
  induction fields with
  | nil => exact Nat.zero_le n
  | cons field fields ih =>
    obtain ⟨hfield, hfields⟩ := List.forall_mem_cons.mp h
    exact Nat.max_le.mpr ⟨hfield, ih hfields⟩

theorem plainItems_of_forall {items : List Json} (h : ∀ item ∈ items, item.plain = true) :
    plainItems items = true := by
  induction items with
  | nil => rfl
  | cons item items ih =>
    obtain ⟨hitem, hitems⟩ := List.forall_mem_cons.mp h
    rw [plainItems, hitem, ih hitems, Bool.and_self]

theorem plainFields_of_forall {fields : List (String × Json)}
    (h : ∀ field ∈ fields, field.2.plain = true) : plainFields (named fields) = true := by
  induction fields with
  | nil => rfl
  | cons field fields ih =>
    obtain ⟨hfield, hfields⟩ := List.forall_mem_cons.mp h
    rw [named_cons, plainFields, hfield, ih hfields]
    rfl

/-- A spelled value is nested no deeper than its bound. -/
theorem Spelled.depth_le (h : Spelled n j) : j.depth ≤ n := by
  induction h with
  | null => exact Nat.zero_le _
  | bool b => exact Nat.zero_le _
  | integer _ _ => exact Nat.zero_le _
  | str s => exact Nat.zero_le _
  | array _ ih => exact Nat.succ_le_succ (depthItems_le ih)
  | record _ ih =>
    refine Nat.succ_le_succ (depthFields_le fun field hfield => ?_)
    obtain ⟨pair, hpair, rfl⟩ := List.mem_map.mp hfield
    exact ih pair hpair

/-- A spelled value is well-formed wherever one looks. -/
theorem Spelled.plain (h : Spelled n j) : j.plain = true := by
  induction h with
  | null => rfl
  | bool b => rfl
  | integer _ _ => rfl
  | str s => rfl
  | array _ ih => exact plainItems_of_forall ih
  | record _ ih => exact plainFields_of_forall ih

/-! ## Faithful forms -/

/-- **A faithful form**: its values are spelled, nested no deeper than the bound, and each is
read back as what it was written for. -/
structure Faithful {α : Type} (n : Nat) (write : α → Json) (read : Json → Option α) : Prop where
  spelled : ∀ a, Spelled n (write a)
  read_write : ∀ a, read (write a) = some a

section

variable {α : Type} {write : α → Json} {read : Json → Option α}

/-- **A form that survives being written as text**: the text of a value is read back as that
value, and different values have different texts. -/
structure RoundTrip {α : Type} (write : α → Json) (read : Json → Option α) : Prop where
  read_text : ∀ a, (read? (write a).compact).bind read = some a
  text_injective : ∀ a b, (write a).compact = (write b).compact → a = b

/-- **A faithful form survives being written as text.** -/
theorem Faithful.roundTrip (h : Faithful n write read) : RoundTrip write read := by
  have hread : ∀ a, (read? (write a).compact).bind read = some a := fun a => by
    rw [(h.spelled a).read?_compact, Option.bind_some, h.read_write]
  refine ⟨hread, fun a b heq => ?_⟩
  have hsame := hread b
  rw [← heq, hread a] at hsame
  exact Option.some.inj hsame

/-- What the items of a list are written as is read back item by item. -/
theorem mapM_read_write (h : ∀ a, read (write a) = some a) (xs : List α) :
    (xs.map write).mapM read = some xs := by
  induction xs with
  | nil => rfl
  | cons x xs ih => rw [List.map_cons, List.mapM_cons, h, ih]; rfl

/-- **The list of a faithful form** is faithful. -/
theorem Faithful.list (h : Faithful n write read) :
    Faithful (n + 1) (ofList write) (list? read) where
  spelled := fun xs => .array fun item hitem => by
    obtain ⟨x, _, rfl⟩ := List.mem_map.mp hitem
    exact h.spelled x
  read_write := mapM_read_write h.read_write

/-- **The name of a variant without data** is faithful if the names differ. -/
theorem faithful_name {name : α → String} {ofName? : String → Option α}
    (h : ∀ a, ofName? (name a) = some a) (n : Nat) :
    Faithful n (fun a => .str (name a)) fun j => j.variantName?.bind ofName? where
  spelled := fun a => .str (name a)
  read_write := h

/-- An optional field that is present is read as its value. -/
theorem optional?_map (h : Faithful n write read) (hnull : ∀ a, write a ≠ null) (a? : Option α) :
    optional? read (a?.map write) = some a? := by
  cases a? with
  | none => rfl
  | some a =>
    rw [Option.map_some, optional?, h.read_write]
    · rfl
    · exact fun h => hnull a h

end

theorem faithful_str (n : Nat) : Faithful n str text? :=
  ⟨.str, fun _ => rfl⟩

theorem faithful_bool (n : Nat) : Faithful n bool bool? :=
  ⟨.bool, fun _ => rfl⟩

theorem faithful_int64 (n : Nat) : Faithful n ofInt64 int64? where
  spelled := fun a => .integer a.minValue_le_toInt (Int.lt_trans a.toInt_lt (by decide))
  read_write := fun a => by
    rw [ofInt64, int64?, integer?, Option.bind_some, if_pos ⟨a.minValue_le_toInt, a.toInt_le⟩,
      Int64.ofInt_toInt]

theorem faithful_uint64 (n : Nat) : Faithful n ofUInt64 uint64? where
  spelled := fun a => .integer (Int.le_trans (by decide) (Int.natCast_nonneg a.toNat))
    (Int.ofNat_lt.mpr a.toNat_lt)
  read_write := fun a => by
    rw [ofUInt64, uint64?, integer?, Option.bind_some,
      if_pos ⟨Int.natCast_nonneg _, Int.ofNat_lt.mpr a.toNat_lt⟩, Int.toNat_natCast,
      UInt64.ofNat_toNat]

theorem faithful_uint8 (n : Nat) : Faithful n (fun a : UInt8 => integer a.toNat) uint8? where
  spelled := fun a => .integer (Int.le_trans (by decide) (Int.natCast_nonneg a.toNat))
    (Int.ofNat_lt.mpr (Nat.lt_trans a.toNat_lt (by decide)))
  read_write := fun a => by
    rw [uint8?, integer?, Option.bind_some,
      if_pos ⟨Int.natCast_nonneg _, Int.ofNat_lt.mpr a.toNat_lt⟩, Int.toNat_natCast,
      UInt8.ofNat_toNat]

theorem faithful_bytes (n : Nat) : Faithful (n + 1) ofBytes bytes? :=
  (faithful_uint8 n).list

/-! ## The fields of a record -/

section

variable {fields : List (String × Json)} {name : String}

/-- A name that is none of a record is the name of no field. -/
theorem ne_of_mem_named (h : name ∉ fields.map Prod.fst) {field : Literal × Json}
    (hfield : field ∈ named fields) : field.1 ≠ .text name := by
  obtain ⟨pair, hpair, rfl⟩ := List.mem_map.mp hfield
  exact fun hname => h (List.mem_map.mpr ⟨pair, hpair, Literal.text.inj hname⟩)

theorem filter_named_eq_nil (h : name ∉ fields.map Prod.fst) :
    (named fields).filter (fun field => field.1 == .text name) = [] :=
  List.filter_eq_nil_iff.mpr fun _ hfield heq => ne_of_mem_named h hfield (eq_of_beq heq)

theorem filter_named_eq_self (h : name ∉ fields.map Prod.fst) :
    (named fields).filter (fun field => field.1 != .text name) = named fields :=
  List.filter_eq_self.mpr fun _ hfield => bne_iff_ne.mpr (ne_of_mem_named h hfield)

/-- The field in front is found by its name, if no other field has that name. -/
theorem field?_named_cons_self (h : name ∉ fields.map Prod.fst) (value : Json) :
    field? name (named ((name, value) :: fields)) = some (some value) := by
  unfold field?
  rw [named_cons, List.filter_cons, if_pos (beq_self_eq_true _), filter_named_eq_nil h]

/-- Any other field is found behind it. -/
theorem field?_named_cons_of_ne {name' : String} (h : name' ≠ name) (value : Json) :
    field? name (named ((name', value) :: fields)) = field? name (named fields) := by
  unfold field?
  rw [named_cons, List.filter_cons, if_neg fun heq => h (Literal.text.inj (eq_of_beq heq))]

/-- **A field is found by its name**, if no name occurs twice. -/
theorem field?_named (h : (fields.map Prod.fst).Nodup) (name : String) :
    field? name (named fields) = some (fields.lookup name) := by
  induction fields with
  | nil => rfl
  | cons field fields ih =>
    obtain ⟨name', value⟩ := field
    obtain ⟨hnew, hfields⟩ := List.nodup_cons.mp h
    rw [List.lookup_cons]
    by_cases hname : name' = name
    · subst hname
      rw [field?_named_cons_self hnew, beq_self_eq_true]
    · rw [field?_named_cons_of_ne hname, ih hfields, beq_false_of_ne (Ne.symm hname)]

/-- **The fields of a record are found by their names**, if no name occurs twice; a field that
the record has not is found to be absent. -/
theorem fields?_record {keys : List String} (hkeys : keys.Nodup) (h : fields.map Prod.fst = keys)
    (names : List String) :
    (record fields).fields? names = some (names.map fun name => fields.lookup name) := by
  have htexts : (named fields).all (fun field => field.1.isText) = true := by
    rw [named, List.all_map, List.all_eq_true]
    exact fun _ _ => rfl
  show (if (named fields).all (fun field => field.1.isText) = true then
    names.mapM fun name => field? name (named fields) else none) = _
  rw [if_pos htexts]
  induction names with
  | nil => rfl
  | cons name names ih =>
    rw [List.mapM_cons, field?_named (h ▸ hkeys), ih]
    rfl

/-- The only field of a record is found. -/
theorem fields?_singleton (name : String) (value : Json) :
    (record [(name, value)]).fields? [name] = some [some value] := by
  rw [fields?_record (List.pairwise_singleton _ name) rfl, List.map_cons, List.lookup_cons_self]
  rfl

/-- **A variant is told by its name**, and its record is what stands beside the name. -/
theorem tagged?_record {keys : List String} (hkeys : "type" ∉ keys) (h : fields.map Prod.fst = keys)
    {tag : String} {level : Nat} (hspelled : Spelled n (record (("type", str tag) :: fields)))
    (hlevel : level + n ≤ depthLimit) :
    tagged? level (record (("type", str tag) :: fields)) = some (tag, record fields) := by
  have hdepth := Nat.le_trans (Nat.add_le_add_left hspelled.depth_le level) hlevel
  have hnew : "type" ∉ fields.map Prod.fst := h ▸ hkeys
  have hrest : (named (("type", str tag) :: fields)).filter (fun field =>
      field.1 != .text "type") = named fields := by
    rw [named_cons, List.filter_cons, if_neg fun hne => bne_iff_ne.mp hne rfl,
      filter_named_eq_self hnew]
  unfold tagged?
  rw [hspelled.plain, decide_eq_true hdepth, Bool.and_self, if_pos rfl]
  show ((field? "type" (named (("type", str tag) :: fields))).bind fun tag =>
    (tag.bind text?).bind fun tag =>
      some (tag, object ((named (("type", _) :: fields)).filter _))) = _
  rw [field?_named_cons_self hnew, hrest]
  rfl

end

end Json

end SealedGroup
