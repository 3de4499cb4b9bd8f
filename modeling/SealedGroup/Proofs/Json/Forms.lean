import SealedGroup.Json.Message
import SealedGroup.Json.Notice
import SealedGroup.Proofs.Json.Records

/-!
# Written forms read back

Each type that is both written and read has a faithful form. Identifiers are written by their
canonical text, key material and groups as records, variants without data by their names, and of
the variants with data a difference and a body lead with their name among the fields of their
record, where an announcement keeps its payload in a field of its own. The optional fields of a
notice stand in its record exactly if they are set.

So all of them survive being written as text: what is read is what was written, to the variant
and to the last absent field, and different values have different texts
(`written_forms_round_trip`). There is no bound in this on the strings, the numbers or the
lengths of lists that a value holds.

## How a form is shown to be faithful

The sections follow the definitions. Each form has a number, the depth to which its values are
nested, which is that of the deepest of its fields and one more. Each is then a matter of naming
its fields: a record is spelled if its fields are, and is read back if each field is, by
`Json.fields?_record`. Nothing is shown of a form that its parts have been shown to do already.

For variants there are two steps. What the reader makes of a name and a record comes first, as
one lemma for all variants, and then each variant supplies its name and its fields.

Values that the reader takes but the writer does not make – an identifier in upper case, a
record with its fields in another order – are not looked at. Of identifiers,
`Identifier.texts_are_canonical` says what becomes of them.
-/

namespace SealedGroup

open Json (Faithful RoundTrip Spelled fields?_record fields?_singleton tagged?_record
  faithful_str faithful_bool faithful_int64 faithful_uint64 faithful_bytes faithful_name)

/-! ## Identifiers and keys -/

namespace Identifier

theorem faithful (n : Nat) : Faithful n toJson ofJson? where
  spelled := fun id => .str id.text
  read_write := fun id => by
    unfold ofJson?
    rw [show id.toJson.text? = some id.text from rfl, Option.bind_some, parse_text]
    rfl

theorem faithful_list (n : Nat) : Faithful (n + 1) listToJson listOfJson? :=
  (faithful n).list

end Identifier

theorem Roster.faithful (n : Nat) : Faithful (n + 1) Roster.toJson Roster.ofJson? where
  spelled := fun r => (Identifier.faithful_list n).spelled r.toList
  read_write := fun r => by
    unfold toJson ofJson?
    rw [(Identifier.faithful_list n).read_write, Option.map_some, ofList_toList]

theorem KeyRow.faithful (n : Nat) : Faithful (n + 1) KeyRow.toJson KeyRow.ofJson? where
  spelled := fun pair => .record <| by
    simp only [List.forall_mem_cons]
    exact ⟨.str _, .str _, nofun⟩
  read_write := fun pair => by
    have hfields : pair.toJson.fields? fieldNames =
        some [some (.str pair.publicText), some (.str pair.secretText)] :=
      fields?_record (show fieldNames.Nodup by decide) rfl fieldNames
    unfold ofJson?
    rw [hfields]
    rfl

theorem RawPair.faithful (n : Nat) : Faithful (n + 2) RawPair.toJson RawPair.ofJson? where
  spelled := fun pair => .record <| by
    simp only [List.forall_mem_cons]
    exact ⟨(faithful_bytes n).spelled _, (faithful_bytes n).spelled _, nofun⟩
  read_write := fun pair => by
    have hfields : pair.toJson.fields? fieldNames =
        some [some (.ofBytes pair.publicPart), some (.ofBytes pair.secretPart)] :=
      fields?_record (show fieldNames.Nodup by decide) rfl fieldNames
    unfold ofJson?
    rw [hfields]
    simp only [Option.bind_eq_bind, Option.bind_some, (faithful_bytes 0).read_write,
      Option.pure_def]

theorem Wrapper.faithful (n : Nat) : Faithful (n + 2) Wrapper.toJson Wrapper.ofJson? where
  spelled := fun wrapper => .record <| by
    simp only [List.forall_mem_cons]
    exact ⟨(Identifier.faithful _).spelled _, (faithful_bytes n).spelled _, nofun⟩
  read_write := fun wrapper => by
    have hfields : wrapper.toJson.fields? fieldNames =
        some [some wrapper.recipient.toJson, some (.ofBytes wrapper.ciphertext)] :=
      fields?_record (show fieldNames.Nodup by decide) rfl fieldNames
    unfold ofJson?
    rw [hfields]
    simp only [Option.bind_eq_bind, Option.bind_some, (Identifier.faithful 0).read_write,
      (faithful_bytes 0).read_write, Option.pure_def]

/-! ## Names -/

theorem ExpirationMode.faithful (n : Nat) :
    Faithful n ExpirationMode.toJson ExpirationMode.ofJson? :=
  faithful_name (fun mode => by cases mode <;> rfl) n

theorem ExpirationKind.faithful (n : Nat) :
    Faithful n ExpirationKind.toJson ExpirationKind.ofJson? :=
  faithful_name (fun kind => by cases kind <;> rfl) n

theorem Direction.faithful (n : Nat) : Faithful n Direction.toJson Direction.ofJson? :=
  faithful_name (fun direction => by cases direction <;> rfl) n

theorem Channel.faithful (n : Nat) : Faithful n Channel.toJson Channel.ofJson? :=
  faithful_name (fun channel => by cases channel <;> rfl) n

/-! ## Groups -/

theorem ExpirationUpdate.faithful (n : Nat) :
    Faithful (n + 1) ExpirationUpdate.toJson ExpirationUpdate.ofJson? where
  spelled := fun update => .record <| by
    simp only [List.forall_mem_cons]
    exact ⟨(ExpirationKind.faithful n).spelled _, (faithful_uint64 n).spelled _, .bool _, nofun⟩
  read_write := fun update => by
    have hfields : update.toJson.fields? fieldNames =
        some [some update.kind.toJson, some (.ofUInt64 update.timer), some (.bool update.legacy)] :=
      fields?_record (show fieldNames.Nodup by decide) rfl fieldNames
    unfold ofJson?
    rw [hfields]
    simp only [Option.bind_eq_bind, Option.bind_some, (ExpirationKind.faithful 0).read_write,
      (faithful_uint64 0).read_write, (faithful_bool 0).read_write, Option.pure_def]

theorem StoredGroup.faithful (n : Nat) :
    Faithful (n + 2) StoredGroup.toJson StoredGroup.ofJson? where
  spelled := fun g => .record <| by
    simp only [List.forall_mem_cons]
    exact ⟨(Identifier.faithful _).spelled _, .str _, (Roster.faithful n).spelled _,
      (Roster.faithful n).spelled _, (Identifier.faithful_list n).spelled _,
      (faithful_int64 _).spelled _, .bool _, (ExpirationMode.faithful _).spelled _,
      (faithful_uint64 _).spelled _, nofun⟩
  read_write := fun g => by
    have hfields : g.toJson.fields? fieldNames =
        some [some g.id.toJson, some (.str g.name), some g.members.toJson, some g.zombies.toJson,
          some (Identifier.listToJson g.admins), some (.ofInt64 g.activeAt), some (.bool g.left),
          some g.mode.toJson, some (.ofUInt64 g.timer)] :=
      fields?_record (show fieldNames.Nodup by decide) rfl fieldNames
    unfold ofJson?
    rw [hfields]
    simp only [Option.bind_eq_bind, Option.bind_some, (Identifier.faithful 0).read_write,
      (faithful_str 0).read_write, (Roster.faithful 0).read_write,
      (Identifier.faithful_list 0).read_write, (faithful_int64 0).read_write,
      (faithful_bool 0).read_write, (ExpirationMode.faithful 0).read_write,
      (faithful_uint64 0).read_write, Option.pure_def]

theorem GroupSnapshot.faithful (n : Nat) :
    Faithful (n + 2) GroupSnapshot.toJson GroupSnapshot.ofJson? where
  spelled := fun g => .record <| by
    simp only [List.forall_mem_cons]
    exact ⟨(Identifier.faithful _).spelled _, .str _, (Identifier.faithful_list n).spelled _,
      (Identifier.faithful_list n).spelled _, (faithful_int64 _).spelled _,
      (Identifier.faithful_list n).spelled _, (ExpirationKind.faithful _).spelled _,
      (faithful_uint64 _).spelled _, nofun⟩
  read_write := fun g => by
    have hfields : g.toJson.fields? fieldNames =
        some [some g.id.toJson, some (.str g.name), some (Identifier.listToJson g.members),
          some (Identifier.listToJson g.zombies), some (.ofInt64 g.activeAt),
          some (Identifier.listToJson g.admins), some g.expiration.toJson,
          some (.ofUInt64 g.timer)] :=
      fields?_record (show fieldNames.Nodup by decide) rfl fieldNames
    unfold ofJson?
    rw [hfields]
    simp only [Option.bind_eq_bind, Option.bind_some, (Identifier.faithful 0).read_write,
      (faithful_str 0).read_write, (Identifier.faithful_list 0).read_write,
      (faithful_int64 0).read_write, (ExpirationKind.faithful 0).read_write,
      (faithful_uint64 0).read_write, Option.pure_def]

/-! ## Variants -/

namespace Change

theorem spelled_toJson (n : Nat) (change : Change) : Spelled (n + 2) change.toJson := by
  cases change with
  | renamed newName =>
    refine .record ?_
    simp only [List.forall_mem_cons]
    exact ⟨.str _, .str _, nofun⟩
  | added ids withHistory =>
    refine .record ?_
    simp only [List.forall_mem_cons]
    exact ⟨.str _, (Identifier.faithful_list n).spelled ids, .bool _, nofun⟩
  | removed ids =>
    refine .record ?_
    simp only [List.forall_mem_cons]
    exact ⟨.str _, (Identifier.faithful_list n).spelled ids, nofun⟩
  | unchanged =>
    refine .record ?_
    simp only [List.forall_mem_cons]
    exact ⟨.str _, nofun⟩

/-- A difference is read from the name of its variant and the record of its data. -/
theorem ofJson?_of_tagged {j record : Json} {tag : String}
    (h : j.tagged? 0 = some (tag, record)) : ofJson? j = ofTagged? tag record := by
  unfold ofJson?
  rw [h]
  rfl

theorem faithful (n : Nat) : Faithful (n + 2) toJson ofJson? where
  spelled := spelled_toJson n
  read_write := fun change => by
    have hlevel : 0 + 2 ≤ Json.depthLimit := by decide
    have hspelled := spelled_toJson 0 change
    cases change with
    | renamed newName =>
      rw [toJson, ofJson?_of_tagged (tagged?_record (show "type" ∉ ["new_name"] by decide) rfl
        hspelled hlevel)]
      unfold ofTagged?
      rw [if_pos rfl, fields?_singleton]
      rfl
    | added ids withHistory =>
      have hfields : (Json.record [("added", Identifier.listToJson ids),
          ("with_history", .bool withHistory)]).fields? ["added", "with_history"] =
            some [some (Identifier.listToJson ids), some (.bool withHistory)] :=
        fields?_record (show ["added", "with_history"].Nodup by decide) rfl _
      rw [toJson, ofJson?_of_tagged (tagged?_record
        (show "type" ∉ ["added", "with_history"] by decide) rfl hspelled hlevel)]
      unfold ofTagged?
      rw [if_neg (by decide), if_pos rfl, hfields]
      simp only [Option.bind_eq_bind, Option.bind_some, (Identifier.faithful_list 0).read_write,
        (faithful_bool 0).read_write, Option.pure_def]
    | removed ids =>
      rw [toJson, ofJson?_of_tagged (tagged?_record (show "type" ∉ ["kicked"] by decide) rfl
        hspelled hlevel)]
      unfold ofTagged?
      rw [if_neg (by decide), if_neg (by decide), if_pos rfl, fields?_singleton]
      simp only [Option.bind_eq_bind, Option.bind_some, (Identifier.faithful_list 0).read_write,
        Option.pure_def]
    | unchanged =>
      rw [toJson, ofJson?_of_tagged (tagged?_record (List.not_mem_nil) rfl hspelled hlevel)]
      rfl

end Change

namespace MessageBody

theorem spelled_toJson (n : Nat) (body : MessageBody) : Spelled (n + 4) body.toJson := by
  cases body with
  | rename name =>
    refine .record ?_
    simp only [List.forall_mem_cons]
    exact ⟨.str _, .str _, nofun⟩
  | addition ids =>
    refine .record ?_
    simp only [List.forall_mem_cons]
    exact ⟨.str _, (Identifier.faithful_list _).spelled ids, nofun⟩
  | removal ids =>
    refine .record ?_
    simp only [List.forall_mem_cons]
    exact ⟨.str _, (Identifier.faithful_list _).spelled ids, nofun⟩
  | keyPair wrappers =>
    refine .record ?_
    simp only [List.forall_mem_cons]
    exact ⟨.str _, (Wrapper.faithful n).list.spelled wrappers, nofun⟩
  | invitation name members admins pair =>
    refine .record ?_
    simp only [List.forall_mem_cons]
    exact ⟨.str _, .str _, (Identifier.faithful_list _).spelled members,
      (Identifier.faithful_list _).spelled admins, (RawPair.faithful _).spelled pair, nofun⟩

/-- A body is read from the name of its variant and the record of its data. -/
theorem ofJson?_of_tagged {j record : Json} {tag : String}
    (h : j.tagged? 1 = some (tag, record)) : ofJson? j = ofTagged? tag record := by
  unfold ofJson?
  rw [h]
  rfl

theorem faithful (n : Nat) : Faithful (n + 4) toJson ofJson? where
  spelled := spelled_toJson n
  read_write := fun body => by
    have hlevel : 1 + 4 ≤ Json.depthLimit := by decide
    have hspelled := spelled_toJson 0 body
    cases body with
    | rename name =>
      rw [toJson, ofJson?_of_tagged (tagged?_record (show "type" ∉ ["name"] by decide) rfl
        hspelled hlevel)]
      unfold ofTagged?
      rw [if_pos rfl, fields?_singleton]
      rfl
    | addition ids =>
      rw [toJson, ofJson?_of_tagged (tagged?_record (show "type" ∉ ["added"] by decide) rfl
        hspelled hlevel)]
      unfold ofTagged?
      rw [if_neg (by decide), if_pos rfl, fields?_singleton]
      simp only [Option.bind_eq_bind, Option.bind_some, (Identifier.faithful_list 0).read_write,
        Option.pure_def]
    | removal ids =>
      rw [toJson, ofJson?_of_tagged (tagged?_record (show "type" ∉ ["removed"] by decide) rfl
        hspelled hlevel)]
      unfold ofTagged?
      rw [if_neg (by decide), if_neg (by decide), if_pos rfl, fields?_singleton]
      simp only [Option.bind_eq_bind, Option.bind_some, (Identifier.faithful_list 0).read_write,
        Option.pure_def]
    | keyPair wrappers =>
      rw [toJson, ofJson?_of_tagged (tagged?_record (show "type" ∉ ["wrappers"] by decide) rfl
        hspelled hlevel)]
      unfold ofTagged?
      rw [if_neg (by decide), if_neg (by decide), if_neg (by decide), if_pos rfl,
        fields?_singleton]
      simp only [Option.bind_eq_bind, Option.bind_some, (Wrapper.faithful 0).list.read_write,
        Option.pure_def]
    | invitation name members admins pair =>
      have hfields : (Json.record [("name", .str name), ("members", Identifier.listToJson members),
          ("admins", Identifier.listToJson admins), ("key_pair", pair.toJson)]).fields?
            ["name", "members", "admins", "key_pair"] =
          some [some (.str name), some (Identifier.listToJson members),
            some (Identifier.listToJson admins), some pair.toJson] :=
        fields?_record (show ["name", "members", "admins", "key_pair"].Nodup by decide) rfl _
      rw [toJson, ofJson?_of_tagged (tagged?_record
        (show "type" ∉ ["name", "members", "admins", "key_pair"] by decide) rfl hspelled hlevel)]
      unfold ofTagged?
      rw [if_neg (by decide), if_neg (by decide), if_neg (by decide), if_neg (by decide),
        if_pos rfl, hfields]
      simp only [Option.bind_eq_bind, Option.bind_some, (faithful_str 0).read_write,
        (Identifier.faithful_list 0).read_write, (RawPair.faithful 0).read_write, Option.pure_def]

end MessageBody

theorem Message.faithful (n : Nat) : Faithful (n + 5) Message.toJson Message.ofJson? where
  spelled := fun message => .record <| by
    simp only [List.forall_mem_cons]
    exact ⟨(Identifier.faithful _).spelled _, .str _, (faithful_int64 _).spelled _,
      (faithful_uint64 _).spelled _, message.body.spelled_toJson n, nofun⟩
  read_write := fun message => by
    have hfields : message.toJson.fields? fieldNames =
        some [some message.groupId.toJson, some (.str message.identifier),
          some (.ofInt64 message.createdAt), some (.ofUInt64 message.timer),
          some message.body.toJson] :=
      fields?_record (show fieldNames.Nodup by decide) rfl fieldNames
    unfold ofJson?
    rw [hfields]
    simp only [Option.bind_eq_bind, Option.bind_some, (Identifier.faithful 0).read_write,
      (faithful_str 0).read_write, (faithful_int64 0).read_write, (faithful_uint64 0).read_write,
      (MessageBody.faithful 0).read_write, Option.pure_def]

/-! ## Notices -/

namespace Announcement

theorem spelled_toJson (n : Nat) (announcement : Announcement) :
    Spelled (n + 2) announcement.toJson := by
  have hpayload : ∀ (tag : String) (ids : List Identifier), Spelled (n + 2)
      (.record [("type", .str tag), ("payload", Identifier.listToJson ids)]) := fun tag ids => by
    refine .record ?_
    simp only [List.forall_mem_cons]
    exact ⟨.str tag, (Identifier.faithful_list n).spelled ids, nofun⟩
  cases announcement with
  | renamed newName =>
    refine .record ?_
    simp only [List.forall_mem_cons]
    exact ⟨.str _, .str newName, nofun⟩
  | joined ids => exact hpayload _ ids
  | joinedWithHistory ids => exact hpayload _ ids
  | removed ids => exact hpayload _ ids
  | left ids => exact hpayload _ ids
  | promoted ids => exact hpayload _ ids
  | avatarChanged =>
    refine .record ?_
    simp only [List.forall_mem_cons]
    exact ⟨.str _, nofun⟩

/-- An announcement in an object is read from its name and its payload, if it has one. -/
theorem ofJson?_record {fields : List (String × Json)} {tag : String} {payload : Option Json}
    (h : (Json.record fields).fields? ["type", "payload"] = some [some (.str tag), payload]) :
    ofJson? (.record fields) = ofPayload? tag payload := by
  rw [ofJson?, h]
  · rfl
  · exact fun _ _ h => Json.noConfusion h
  · exact fun _ h => Json.noConfusion h

/-- An announcement with a payload is read from its name and its payload. -/
theorem ofJson?_payload (tag : String) (payload : Json) :
    ofJson? (.record [("type", .str tag), ("payload", payload)]) =
      ofPayload? tag (some payload) :=
  ofJson?_record (fields?_record (show ["type", "payload"].Nodup by decide) rfl _)

theorem faithful (n : Nat) : Faithful (n + 2) toJson ofJson? where
  spelled := spelled_toJson n
  read_write := fun announcement => by
    have hids := (Identifier.faithful_list 0).read_write
    cases announcement with
    | renamed newName => exact ofJson?_payload "rename" _
    | joined ids =>
      exact (ofJson?_payload "joined" _).trans (congrArg (Option.map joined) (hids ids))
    | joinedWithHistory ids =>
      exact (ofJson?_payload "joinedWithHistory" _).trans
        (congrArg (Option.map joinedWithHistory) (hids ids))
    | removed ids =>
      exact (ofJson?_payload "kicked" _).trans (congrArg (Option.map removed) (hids ids))
    | left ids => exact (ofJson?_payload "left" _).trans (congrArg (Option.map left) (hids ids))
    | promoted ids =>
      exact (ofJson?_payload "promoted" _).trans (congrArg (Option.map promoted) (hids ids))
    | avatarChanged =>
      have hfields : (Json.record [("type", .str "avatarChange")]).fields? ["type", "payload"] =
          some [some (.str "avatarChange"), none] :=
        fields?_record (show ["type"].Nodup by decide) rfl _
      exact ofJson?_record hfields

end Announcement

namespace Notice

section

variable {α : Type} {name : String} {write : α → Json} {value? : Option α}

/-- An optional field has its own name, if it is there. -/
theorem optionalField_names (name : String) (write : α → Json) (value? : Option α) :
    ((optionalField name write value?).map Prod.fst).Sublist [name] := by
  cases value? with
  | none => exact List.nil_sublist _
  | some value => exact List.Sublist.refl _

theorem spelled_optionalField {n : Nat} (h : ∀ value, Spelled n (write value)) :
    ∀ field ∈ optionalField name write value?, Spelled n field.2 := by
  cases value? with
  | none => exact nofun
  | some value => exact List.forall_mem_cons.mpr ⟨h value, nofun⟩

end

theorem spelled_toJson (n : Nat) (notice : Notice) : Spelled (n + 3) notice.toJson := by
  refine .record ?_
  simp only [List.forall_mem_append, List.forall_mem_cons]
  exact ⟨⟨⟨⟨.str _, (Identifier.faithful _).spelled _, (Identifier.faithful _).spelled _,
    (faithful_int64 _).spelled _, (Direction.faithful _).spelled _,
    (Announcement.faithful n).spelled _, nofun⟩,
    spelled_optionalField (ExpirationKind.faithful _).spelled⟩,
    spelled_optionalField (faithful_uint64 _).spelled⟩,
    spelled_optionalField (faithful_int64 _).spelled⟩

/-- **The fields of a notice**: an optional one is found exactly if it is set. -/
theorem fields?_toJson (notice : Notice) :
    notice.toJson.fields? fieldNames =
      some [some (.str notice.id), some notice.conversation.toJson, some notice.sender.toJson,
        some (.ofInt64 notice.sentAt), some notice.direction.toJson,
        some notice.announcement.toJson, notice.expiration.map ExpirationKind.toJson,
        notice.timer.map Json.ofUInt64, notice.expirationStart.map Json.ofInt64] := by
  obtain ⟨id, conversation, sender, sentAt, direction, announcement, expiration, timer, start⟩ :=
    notice
  unfold toJson
  dsimp only
  -- the names are some of the names of the fields, in their order
  rw [fields?_record (List.Nodup.sublist ?_ (show fieldNames.Nodup by decide)) rfl]
  · cases expiration <;> cases timer <;> cases start <;> rfl
  · rw [List.map_append, List.map_append, List.map_append]
    exact (((List.Sublist.refl _).append (optionalField_names ..)).append
      (optionalField_names ..)).append (optionalField_names ..)

theorem faithful (n : Nat) : Faithful (n + 3) toJson ofJson? where
  spelled := spelled_toJson n
  read_write := fun notice => by
    have hkind := Json.optional?_map (ExpirationKind.faithful 0) (fun _ => nofun) notice.expiration
    have htimer := Json.optional?_map (faithful_uint64 0) (fun _ => nofun) notice.timer
    have hstart := Json.optional?_map (faithful_int64 0) (fun _ => nofun) notice.expirationStart
    unfold ofJson?
    rw [fields?_toJson]
    simp only [Option.bind_eq_bind, Option.bind_some, (faithful_str 0).read_write,
      (Identifier.faithful 0).read_write, (faithful_int64 0).read_write,
      (Direction.faithful 0).read_write, (Announcement.faithful 0).read_write, hkind, htimer,
      hstart, Option.pure_def]

end Notice

/-! ## All forms -/

/-- **Whatever is written is read back.** The text of every identifier, key row, pair, wrapper,
message, body, stored group, snapshot, difference, announcement, notice, expiration update and
plain name denotes the value that it was written for, and no other value of its type has that
text; and in the text of a notice each optional field is present exactly if it is set. -/
theorem written_forms_round_trip :
    RoundTrip Identifier.toJson Identifier.ofJson? ∧
    RoundTrip KeyRow.toJson KeyRow.ofJson? ∧
    RoundTrip RawPair.toJson RawPair.ofJson? ∧
    RoundTrip Wrapper.toJson Wrapper.ofJson? ∧
    RoundTrip Message.toJson Message.ofJson? ∧
    RoundTrip MessageBody.toJson MessageBody.ofJson? ∧
    RoundTrip StoredGroup.toJson StoredGroup.ofJson? ∧
    RoundTrip GroupSnapshot.toJson GroupSnapshot.ofJson? ∧
    RoundTrip Change.toJson Change.ofJson? ∧
    RoundTrip Announcement.toJson Announcement.ofJson? ∧
    RoundTrip Notice.toJson Notice.ofJson? ∧
    RoundTrip ExpirationUpdate.toJson ExpirationUpdate.ofJson? ∧
    RoundTrip ExpirationMode.toJson ExpirationMode.ofJson? ∧
    RoundTrip ExpirationKind.toJson ExpirationKind.ofJson? ∧
    RoundTrip Direction.toJson Direction.ofJson? ∧
    RoundTrip Channel.toJson Channel.ofJson? ∧
    ∀ notice : Notice, ∃ required : List Json,
      (Json.read? notice.toJson.compact).bind (Json.fields? Notice.fieldNames) =
        some (required.map some ++ [notice.expiration.map ExpirationKind.toJson,
          notice.timer.map Json.ofUInt64, notice.expirationStart.map Json.ofInt64]) := by
  refine ⟨(Identifier.faithful 0).roundTrip, (KeyRow.faithful 0).roundTrip,
    (RawPair.faithful 0).roundTrip, (Wrapper.faithful 0).roundTrip,
    (Message.faithful 0).roundTrip, (MessageBody.faithful 0).roundTrip,
    (StoredGroup.faithful 0).roundTrip, (GroupSnapshot.faithful 0).roundTrip,
    (Change.faithful 0).roundTrip, (Announcement.faithful 0).roundTrip,
    (Notice.faithful 0).roundTrip, (ExpirationUpdate.faithful 0).roundTrip,
    (ExpirationMode.faithful 0).roundTrip, (ExpirationKind.faithful 0).roundTrip,
    (Direction.faithful 0).roundTrip, (Channel.faithful 0).roundTrip, fun notice => ?_⟩
  refine ⟨[.str notice.id, notice.conversation.toJson, notice.sender.toJson,
    .ofInt64 notice.sentAt, notice.direction.toJson, notice.announcement.toJson], ?_⟩
  rw [(notice.spelled_toJson 0).read?_compact]
  exact notice.fields?_toJson

end SealedGroup
