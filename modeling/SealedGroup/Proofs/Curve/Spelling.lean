import SealedGroup.Identifier
import SealedGroup.Proofs.Curve.Coordinates

/-!
# The spellings of a key

A public key is written in two ways, uncompressed with both of its coordinates, and compressed
with the first one and a tag. A key that is written reads back, in either spelling. For the
uncompressed one there is little to show. The compressed one leaves out `y` but for its parity,
and reading has to find it: `x` has two roots, opposite to each other, and of two opposite
residues other than zero one is even and one odd (`PublicKey.parityTag_neg`). So the standard
identifier of a key stands for that key (`Identifier.publicKey_ofPublicKey`), and it is the only
one that does (`Identifier.eq_ofPublicKey`).

## Which byte strings spell a key

The converse takes a description of the byte strings that can be read which does not mention the
reader. `PublicKey.SpellsPoint` is one: a tag, `02` or `03`, and in 32 bytes a number below the
order of the field that is the first coordinate of a point of the curve. Whatever is of that
form is the compressed spelling of a key (`PublicKey.spellsPoint_iff`), so that reading succeeds
there and nowhere else.

Either tag will do with every first coordinate that there is. This would fail of a point with
zero for its second coordinate, which is its own opposite and has one tag only; but no point of
the curve is like that, since the opposite of seven is no cube of the field
(`PublicKey.y_ne_zero`).
-/

namespace SealedGroup

namespace PublicKey

/-- A coordinate reads back. -/
theorem coordinateOfBytes?_coordinateBytes (a : Coordinate) :
    coordinateOfBytes? (coordinateBytes a) = some a := by
  have hval : Bytes.toNat (coordinateBytes a) = a.val :=
    Bytes.toNat_ofNat_of_lt (a.isLt.trans (by decide))
  unfold coordinateOfBytes?
  rw [dif_pos (hval ▸ a.isLt)]
  exact congrArg some (Fin.ext hval)

@[simp] theorem length_coordinateBytes (a : Coordinate) :
    (coordinateBytes a).length = coordinateSize :=
  Bytes.length_ofNat _ _

theorem ofAffine?_self (q : PublicKey) : ofAffine? q.x q.y = some q :=
  dif_pos q.onCurve

/-- **An uncompressed key reads back.** -/
theorem ofUncompressed?_uncompressed (q : PublicKey) : ofUncompressed? q.uncompressed = some q := by
  have hlength : (coordinateBytes q.x ++ coordinateBytes q.y).length = 2 * coordinateSize := by
    rw [List.length_append, length_coordinateBytes, length_coordinateBytes, two_mul]
  unfold uncompressed ofUncompressed?
  dsimp only
  rw [if_pos ⟨rfl, hlength⟩, List.take_left' (length_coordinateBytes q.x),
    List.drop_left' (length_coordinateBytes q.x), coordinateOfBytes?_coordinateBytes,
    coordinateOfBytes?_coordinateBytes, Option.bind_some, Option.bind_some, q.ofAffine?_self]

/-- **Opposite residues differ in parity**, unless they are zero. -/
theorem parityTag_neg {y : Coordinate} (h : y ≠ 0) : parityTag (-y) ≠ parityTag y := by
  have hpos : 0 < y.val := Nat.pos_of_ne_zero fun hzero => h (Fin.ext hzero)
  have hneg : (-y).val = fieldOrder - y.val := by
    show (fieldOrder - y.val) % fieldOrder = _
    exact Nat.mod_eq_of_lt (Nat.sub_lt (by decide) hpos)
  have hodd : fieldOrder % 2 = 1 := by decide
  have hlt : y.val < fieldOrder := y.isLt
  unfold parityTag
  rw [hneg]
  by_cases heven : y.val % 2 = 0
  · rw [if_pos heven, if_neg (by omega)]
    decide
  · rw [if_neg heven, if_pos (by omega)]
    decide

/-- The point of a first coordinate is found by the parity of the second. -/
theorem ofX?_parityTag (q : PublicKey) : ofX? (parityTag q.y) q.x = some q := by
  obtain ⟨root, hroot, hsign⟩ := Coordinate.sqrt?_mul_self q.y
  unfold ofX?
  rw [← q.onCurve, hroot, Option.bind_some]
  have hchoice : (if parityTag root = parityTag q.y then root else -root) = q.y := by
    -- the root that was found is `y` or its opposite, which has the other parity
    rcases hsign with rfl | rfl
    · exact if_pos rfl
    · by_cases hzero : q.y = 0
      · rw [hzero]
        decide
      · rw [if_neg (parityTag_neg hzero), ← Coordinate.toField_inj, Coordinate.toField_neg,
          Coordinate.toField_neg, neg_neg]
  dsimp only
  rw [hchoice, if_pos rfl, q.ofAffine?_self]

/-- **A compressed key reads back.** -/
theorem ofCompressed?_compressed (q : PublicKey) : ofCompressed? q.compressed = some q := by
  unfold compressed ofCompressed?
  dsimp only
  rw [if_pos (length_coordinateBytes q.x), coordinateOfBytes?_coordinateBytes, Option.bind_some,
    q.ofX?_parityTag]

/-! ## Which byte strings spell a key -/

/-- Every element of the field is a coordinate. -/
theorem exists_toField (a : ZMod fieldOrder) : ∃ c : Coordinate, c.toField = a :=
  ⟨⟨a.val, ZMod.val_lt a⟩, ZMod.natCast_zmod_val a⟩

/-- The opposite of seven is no cube. -/
theorem cube_ne_neg_seven (x : ZMod fieldOrder) : x ^ 3 ≠ -7 := by
  have hpower : Coordinate.power (-7) ((fieldOrder - 1) / 3) ≠ 1 := by decide +kernel
  have hseven : Coordinate.toField (-7) = -7 := by
    rw [Coordinate.toField_neg, Coordinate.toField_ofNat]
  have hexponent : 3 * ((fieldOrder - 1) / 3) = fieldOrder - 1 := by decide
  intro hcube
  have hzero : x ≠ 0 := by
    rintro rfl
    rw [zero_pow three_ne_zero, ← hseven, eq_comm, Coordinate.toField_eq_zero] at hcube
    exact absurd hcube (by decide)
  -- three divides `p - 1`, and so a cube other than zero has one for its power `(p - 1) / 3`
  refine hpower (Coordinate.toField_inj.mp ?_)
  rw [Coordinate.toField_power _ (by decide), hseven, ← hcube, ← pow_mul, hexponent,
    ZMod.pow_card_sub_one_eq_one hzero, Coordinate.toField_one]

/-- **No point of the curve is its own opposite.** -/
theorem y_ne_zero (q : PublicKey) : q.y ≠ 0 := by
  intro hzero
  have hcurve := congrArg Coordinate.toField q.onCurve
  rw [hzero] at hcurve
  simp only [Coordinate.toField_mul, Coordinate.toField_add, Coordinate.toField_ofNat,
    Coordinate.toField_zero] at hcurve
  exact cube_ne_neg_seven q.x.toField (by linear_combination -hcurve)

theorem parityTag_cases (y : Coordinate) : parityTag y = 0x02 ∨ parityTag y = 0x03 := by
  unfold parityTag
  split
  · exact .inl rfl
  · exact .inr rfl

/-- **Both parities occur** with each first coordinate that there is. -/
theorem exists_parityTag {x : Coordinate} {tag : UInt8} (htag : tag = 0x02 ∨ tag = 0x03)
    (hroot : ∃ y : ZMod fieldOrder, y ^ 2 = x.toField ^ 3 + 7) :
    ∃ q : PublicKey, q.x = x ∧ parityTag q.y = tag := by
  obtain ⟨root, hroot⟩ := hroot
  obtain ⟨y, rfl⟩ := exists_toField root
  have hcurve : ∀ z : Coordinate, z.toField ^ 2 = y.toField ^ 2 → OnCurve x z := fun z hz => by
    refine Coordinate.toField_inj.mp ?_
    simp only [Coordinate.toField_mul, Coordinate.toField_add, Coordinate.toField_ofNat]
    linear_combination hz + hroot
  have hopposite : OnCurve x (-y) := hcurve (-y) (by rw [Coordinate.toField_neg, neg_sq])
  have hne := parityTag_neg (y_ne_zero ⟨x, y, hcurve y rfl⟩)
  by_cases hparity : parityTag y = tag
  · exact ⟨⟨x, y, hcurve y rfl⟩, rfl, hparity⟩
  · refine ⟨⟨x, -y, hopposite⟩, rfl, ?_⟩
    -- there are two tags only, and `y` has the other one
    have hy := parityTag_cases y
    have hy' := parityTag_cases (-y)
    grind

/-- **The byte string spells a point**: it is a tag, `02` or `03`, and in 32 bytes a number below
the field order that is the first coordinate of a point of the curve. -/
structure SpellsPoint (bs : Bytes) : Prop where
  length_eq : bs.length = 33
  tag : bs.head? = some 0x02 ∨ bs.head? = some 0x03
  lt : Bytes.toNat bs.tail < fieldOrder
  exists_root : ∃ y : ZMod fieldOrder, y ^ 2 = (Bytes.toNat bs.tail : ZMod fieldOrder) ^ 3 + 7

/-- A key spells its point. -/
theorem spellsPoint_compressed (q : PublicKey) : SpellsPoint q.compressed := by
  have hx : Bytes.toNat q.compressed.tail = q.x.val :=
    Bytes.toNat_ofNat_of_lt (q.x.isLt.trans (by decide))
  refine ⟨q.length_compressed, ?_, hx ▸ q.x.isLt, q.y.toField, ?_⟩
  · exact (parityTag_cases q.y).imp (congrArg some) (congrArg some)
  · have hcurve := congrArg Coordinate.toField q.onCurve
    simp only [Coordinate.toField_mul, Coordinate.toField_add, Coordinate.toField_ofNat] at hcurve
    rw [hx]
    show q.y.toField ^ 2 = q.x.toField ^ 3 + 7
    linear_combination hcurve

/-- **What spells a point is the key with that point**, written down. -/
theorem spellsPoint_iff {bs : Bytes} : SpellsPoint bs ↔ ∃ q : PublicKey, bs = q.compressed := by
  constructor
  · rintro ⟨hlength, htag, hlt, hroot⟩
    obtain ⟨tag, xs, rfl⟩ := List.exists_cons_of_length_eq_add_one hlength
    obtain ⟨q, hx, hparity⟩ := exists_parityTag (x := ⟨Bytes.toNat xs, hlt⟩)
      (htag.imp Option.some.inj Option.some.inj) hroot
    have hxs : xs.length = coordinateSize := Nat.succ.inj hlength
    refine ⟨q, ?_⟩
    rw [compressed, hparity, hx, coordinateBytes, ← hxs, Bytes.ofNat_toNat]
  · rintro ⟨q, rfl⟩
    exact spellsPoint_compressed q

/-- **A compressed spelling is read** as the key that is written so. -/
theorem ofCompressed?_eq_some_iff {bs : Bytes} {q : PublicKey} :
    ofCompressed? bs = some q ↔ bs = q.compressed :=
  ⟨fun h => (compressed_of_ofCompressed? h).symm, fun h => h ▸ ofCompressed?_compressed q⟩

end PublicKey

/-- The identifier of a key is a standard one. -/
theorem Identifier.isStandard_ofPublicKey (q : PublicKey) : (ofPublicKey q).isStandard = true :=
  isStandard_iff.mpr ⟨rfl, q.length_compressed⟩

/-- **The standard identifier of a key stands for that key.** -/
theorem Identifier.publicKey_ofPublicKey (q : PublicKey) : (ofPublicKey q).publicKey = .ok q := by
  unfold publicKey
  rw [if_pos (isStandard_ofPublicKey q), show (ofPublicKey q).body = q.compressed from rfl,
    q.ofCompressed?_compressed]

/-- **Only the standard identifier of a key stands for it.** -/
theorem Identifier.eq_ofPublicKey {id : Identifier} {q : PublicKey} (h : id.publicKey = .ok q) :
    id = ofPublicKey q := by
  obtain ⟨tag, body⟩ := id
  unfold publicKey at h
  by_cases hstandard : (⟨tag, body⟩ : Identifier).isStandard = true
  · rw [if_pos hstandard] at h
    obtain rfl : tag = 0x05 := (isStandard_iff.mp hstandard).1
    cases hread : PublicKey.ofCompressed? body with
    | none =>
      rw [hread] at h
      cases h
    | some r =>
      rw [hread] at h
      cases h
      rw [ofPublicKey, PublicKey.compressed_of_ofCompressed? hread]
  · rw [if_neg hstandard] at h
    cases h

end SealedGroup
