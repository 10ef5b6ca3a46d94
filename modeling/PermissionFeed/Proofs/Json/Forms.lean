import PermissionFeed.Proofs.Frames
import PermissionFeed.Proofs.Json.Texts
import PermissionFeed.Proofs.Lists
import PermissionFeed.Proofs.Spellings

namespace PermissionFeed.Json.Form

variable {α β : Type}

structure Exact (form : Form α) : Prop where
  fits : ∀ value, (form.write value).Fits
  reads : ∀ value, form.read? (form.write value) = some value

theorem exact_text : text.Exact where
  fits _ := fits_single rfl rfl
  reads _ := rfl

theorem exact_bool : bool.Exact where
  fits _ := fits_single rfl trivial
  reads _ := rfl

theorem exact_int64 : int64.Exact where
  fits value := fits_single rfl ⟨value.toInt, rfl⟩
  reads value := by
    have inRange : Int64.minValue.toInt ≤ value.toInt ∧ value.toInt ≤ Int64.maxValue.toInt :=
      ⟨value.minValue_le_toInt, value.toInt_le⟩
    simp only [int64, wholeNumber?_literalOf, Option.bind_eq_bind, Option.bind_some, if_pos inRange, Int64.ofInt_toInt]

theorem exact_byte : byte.Exact where
  fits value := fits_single rfl ⟨value.toNat, rfl⟩
  reads value := by
    have inRange : 0 ≤ (value.toNat : Int) ∧ (value.toNat : Int) < 256 :=
      ⟨Int.natCast_nonneg _, Int.ofNat_lt.mpr value.toNat_lt⟩
    simp only [byte, wholeNumber?_literalOf, Option.bind_eq_bind, Option.bind_some, if_pos inRange, Int.toNat_natCast,
      UInt8.ofNat_toNat]

theorem exact_choice {label : α → String} {ofLabel? : String → Option α}
    (inverse : ∀ value, ofLabel? (label value) = some value) : (choice label ofLabel?).Exact where
  fits _ := fits_single rfl rfl
  reads := inverse

theorem Exact.optional {form : Form α} (exact : form.Exact) (solid : ∀ value, form.write value ≠ .null) :
    form.optional.Exact where
  fits
    | none => fits_single rfl trivial
    | some value => exact.fits value
  reads
    | none => rfl
    | some value => by
        have read := exact.reads value
        have present := solid value
        simp only [Form.optional, read, Option.map_some]

theorem Exact.list {form : Form α} (exact : form.Exact) : form.list.Exact where
  fits values := by
    refine fits_array fun item listed => ?_
    obtain ⟨value, -, rfl⟩ := List.mem_map.mp listed
    exact exact.fits value
  reads values := by
    refine mapM_eq_some_iff.mpr ?_
    rw [List.map_map]
    exact List.map_congr_left fun value _ => exact.reads value

theorem Exact.via {form : Form α} (exact : form.Exact) {representation : β → α} {ofRepresentation : α → Option β}
    (inverse : ∀ value, ofRepresentation (representation value) = some value) :
    (form.via representation ofRepresentation).Exact where
  fits value := exact.fits (representation value)
  reads value := by
    simp only [Form.via, exact.reads, Option.bind_some, inverse]

theorem exact_expiry : int64.optional.Exact :=
  exact_int64.optional fun _ => nofun

theorem exact_player : player.Exact :=
  exact_text.via PlayerId.ofChars?_toString

theorem exact_eventId : eventId.Exact :=
  exact_byte.list.via EventId.ofBytes?_toList

theorem ofList_toList [DecidableEq α] [Ord α] [Std.TransOrd α] [Std.LawfulEqOrd α] (set : Std.ExtTreeSet α) :
    Std.ExtTreeSet.ofList set.toList = set :=
  Std.ExtTreeSet.ext_mem fun value => by
    rw [Std.ExtTreeSet.mem_ofList, List.contains_iff_mem, Std.ExtTreeSet.mem_toList]

theorem exact_rowSet {form : Form Row} (exact : form.Exact) : (rowSet form).Exact :=
  exact.list.via fun rows => congrArg some (ofList_toList rows)

theorem exact_nameSet : nameSet.Exact :=
  exact_text.list.via fun names => congrArg some (ofList_toList names)

theorem valuesOf_record {fields : List (String × Json)} (distinct : (fields.map Prod.fst).Nodup) {name : String}
    {value : Json} (listed : (name, value) ∈ fields) :
    valuesOf name (fields.map fun (name, value) => (some name, value)) = [value] := by
  induction fields with
  | nil => contradiction
  | cons field fields ih =>
      obtain ⟨fresh, distinct⟩ := List.nodup_cons.mp distinct
      rw [List.map_cons, valuesOf]
      obtain rfl | later := List.mem_cons.mp listed
      · have others : ∀ member ∈ fields.map (fun (name, value) => (some name, value)), member.1 ≠ some name := by
          intro member listed same
          obtain ⟨other, present, rfl⟩ := List.mem_map.mp listed
          exact fresh (List.mem_map.mpr ⟨other, present, Option.some.inj same⟩)
        rw [List.filter_cons_of_pos (by simp), List.filter_eq_nil_iff.mpr (by simpa using others)]
        rfl
      · have differs : some field.1 ≠ some name := fun same =>
          fresh (List.mem_map.mpr ⟨(name, value), later, (Option.some.inj same).symm⟩)
        rw [List.filter_cons_of_neg (by simpa using differs)]
        exact ih distinct later

theorem fields?_record {names : List String} {fields : List (String × Json)} (named : fields.map Prod.fst = names)
    (distinct : names.Nodup) : fields? names (record fields) = some (fields.map fun field => some field.2) := by
  subst named
  have legible : (fields.map fun (name, value) => (some name, value)).all (·.1.isSome) := by simp
  rw [record, fields?, if_pos legible]
  refine mapM_eq_some_iff.mpr ?_
  rw [List.map_map, List.map_map]
  refine List.map_congr_left fun field listed => ?_
  rw [Function.comp_apply, field?, valuesOf_record distinct listed]
  rfl

theorem fits_record {fields : List (String × Json)} (fit : ∀ field ∈ fields, field.2.Fits) : (record fields).Fits :=
  fits_object fun member listed => by
    obtain ⟨field, present, rfl⟩ := List.mem_map.mp listed
    exact ⟨rfl, fit field present⟩

theorem expiryOf?_write (expiry : Expiry) : expiryOf? (some (int64.optional.write expiry)) = some expiry :=
  exact_expiry.reads expiry

theorem exact_row {keyName : String} (differs : keyName ≠ Field.expiresAt) : (row keyName).Exact where
  fits row := fits_record (by simp [exact_text.fits, exact_expiry.fits])
  reads row := by
    simp only [Form.row]
    rw [fields?_record (by rfl) (by simpa using differs)]
    simp [exact_text.reads, expiryOf?_write]

theorem exact_grant : grant.Exact :=
  exact_row (by decide)

theorem exact_membership : membership.Exact :=
  exact_row (by decide)

theorem exact_group : group.Exact where
  fits group := fits_record (by simp [exact_text.fits, exact_grant.list.fits])
  reads group := by
    simp only [Form.group]
    rw [fields?_record (by rfl) (by decide)]
    simp [exact_text.reads, exact_grant.list.reads]

theorem exact_snapshot : snapshot.Exact where
  fits snapshot := fits_record (by
    simp [exact_player.fits, (exact_rowSet exact_membership).fits, (exact_rowSet exact_grant).fits, exact_nameSet.fits])
  reads snapshot := by
    simp only [Form.snapshot]
    rw [fields?_record (by rfl) (by decide)]
    simp [exact_player.reads, (exact_rowSet exact_membership).reads, (exact_rowSet exact_grant).reads,
      exact_nameSet.reads]

theorem exact_scope : scope.Exact where
  fits scope := fits_record (by simp [exact_bool.fits])
  reads scope := by
    simp only [Form.scope]
    rw [fields?_record (by rfl) (by decide)]
    simp [exact_bool.reads]

theorem exact_outcome : outcome.Exact :=
  exact_choice Outcome.ofLabel?_label

theorem exact_action : action.Exact :=
  exact_choice Action.ofLabel?_label

theorem exact_entry : entry.Exact where
  fits entry := fits_record (by simp [exact_action.fits, exact_text.fits, exact_expiry.fits])
  reads entry := by
    simp only [Form.entry]
    rw [fields?_record (by rfl) (by decide)]
    simp [exact_action.reads, exact_text.reads, expiryOf?_write]

theorem exact_delta : delta.Exact where
  fits delta := fits_record (by simp [exact_entry.list.fits])
  reads delta := by
    simp only [Form.delta]
    rw [fields?_record (by rfl) (by decide)]
    simp [exact_entry.list.reads]

theorem exact_event : event.Exact where
  fits event := fits_record (by
    simp [eventFields, exact_eventId.fits, exact_player.fits, exact_int64.fits, exact_text.fits, exact_bool.fits,
      exact_entry.list.fits])
  reads event := by
    simp only [Form.event]
    rw [fields?_record (by rfl) (by decide)]
    simp [eventFields, exact_eventId.reads, exact_player.reads, exact_int64.reads, exact_text.reads, exact_bool.reads,
      exact_entry.list.reads]

structure Faithful (form : Form α) : Prop where
  reads_back : ∀ value, form.parse? (form.print value) = some value
  normalizes : ∀ text value, form.parse? text = some value → ∃ normal, form.normalize? text = some normal ∧
    form.parse? normal = some value ∧ form.normalize? normal = some normal

theorem Exact.faithful {form : Form α} (exact : form.Exact) : form.Faithful := by
  have readsBack (value : α) : form.parse? (form.print value) = some value := by
    rw [parse?, print, Json.parse?_print (exact.fits value)]
    exact exact.reads value
  refine ⟨readsBack, fun text value parsed => ⟨form.print value, ?_, readsBack value, ?_⟩⟩
  · rw [normalize?, parsed, Option.map_some]
  · rw [normalize?, readsBack, Option.map_some]

theorem texts_round_trip : grant.Faithful ∧ membership.Faithful ∧ group.Faithful ∧ snapshot.Faithful ∧ entry.Faithful ∧
    delta.Faithful ∧ event.Faithful ∧ scope.Faithful ∧ outcome.Faithful :=
  ⟨exact_grant.faithful, exact_membership.faithful, exact_group.faithful, exact_snapshot.faithful, exact_entry.faithful,
    exact_delta.faithful, exact_event.faithful, exact_scope.faithful, exact_outcome.faithful⟩

example : grant.normalize?
    "\x7b \"expires_at\": -9223372036854775808, \"note\": [], \"permission\": \"\\u0041\\uD83D\\uDE00\\/\" \x7d" =
      some "\x7b\"permission\":\"A😀/\",\"expires_at\":-9223372036854775808\x7d" := by
  decide +kernel

end PermissionFeed.Json.Form
