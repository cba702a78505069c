import PipelineEditor.Proofs.Wire.Messages
import PipelineEditor.Session.Basic

/-!
# Reading back configurations

A declaration of an output schema is told to be implicit by its member `implicit` alone.  So an
explicit declaration has no property of that name, except when the entry was spelled in a way that
an implicit declaration cannot be: by an array, or beside another entry of the same name.  Once it
is written, nothing tells the two apart any more, and the written options of the property are read
as the fields of an implicit schema.  Every other declaration is read back.

* `SchemaDeclaration.misread?`, `TypeOptions.raw` — the options that will be taken for fields, and
  the fields that they are taken for;
* `SchemaDeclaration.read?_write`, `WidgetConfig.read?_write` — **what a declaration, and what a
  configuration, is read as after it was written**;
* `configurations_come_back` — a configuration in which nothing is misread comes back, with the
  same effect on every session; any other comes back with its layout and an implicit declaration;
* `implicit_property_misread` — one that does not come back.
-/

namespace PipelineEditor

open Wire
open Json hiding ReadsBack

/-! ## Options as raw JSON -/

namespace TypeOptions

/-- The members that options are written as. -/
def members (o : TypeOptions) : List (String × Json) :=
  member "schema-types" o.types ++ memberIfSome "schema-default-type" o.defaultType
    ++ memberIfSome "property-watch" o.watched

theorem members_distinct (o : TypeOptions) : (o.members.map Prod.fst).Nodup := by
  have hdeclared : Declared (["schema-types"] ++ ["schema-default-type"] ++ ["property-watch"])
      o.members := .append (.append declared_member declared_memberIfSome) declared_memberIfSome
  exact hdeclared.distinct (by decide)

/-- Options as raw JSON: the fields that they are taken for. -/
def raw (o : TypeOptions) : OrderedMap Json := ⟨o.members, o.members_distinct⟩

theorem write_raw (o : TypeOptions) : write o.raw = write o :=
  congrArg Json.object (List.map_id' o.members)

/-- A list of texts is read as raw JSON. -/
theorem readsBack_texts (texts : List String) : ReadsBack (write texts) := by
  have hall : Source.allToJson? (allToSource (texts.map Json.string)) =
      some (texts.map Json.string) := by
    induction texts with
    | nil => rfl
    | cons text rest ih => rw [List.map_cons, allToSource, Source.allToJson?, ih]; rfl
  exact congrArg (Option.map Json.array) hall

/-- The options are texts and a list of texts. -/
theorem readsBack_raw (o : TypeOptions) : ReadsBack o.raw := by
  have htext : ∀ {name : String} {v : Option String}, ∀ e ∈ memberIfSome name v,
      ReadsBack e.2 := by
    intro name v e he
    cases v with
    | none => cases he
    | some text =>
      obtain rfl := List.mem_singleton.mp he
      rfl
  refine ReadsBack.orderedMap fun e he => ?_
  rcases List.mem_append.mp he with hfirst | hwatched
  · rcases List.mem_append.mp hfirst with htypes | hdefault
    · obtain rfl := List.mem_singleton.mp htypes
      exact readsBack_texts o.types
    · exact htext e hdefault
  · exact htext e hwatched

/-- What written options are read as where the fields of an implicit schema stand. -/
theorem read?_write_raw (o : TypeOptions) :
    (read? (write o).toSource : Option (OrderedMap Json)) = some o.raw := by
  rw [← o.write_raw]
  exact o.readsBack_raw

end TypeOptions

/-! ## Declarations -/

namespace SchemaDeclaration

/-- The options that are taken for the fields of an implicit schema once they are written. -/
def misread? : SchemaDeclaration → Option TypeOptions
  | implicit _ => none
  | explicit properties => properties.get? "implicit"

/-- What a declaration is read as after it was written. -/
def reread (d : SchemaDeclaration) : SchemaDeclaration :=
  match d.misread? with
  | some o => .implicit o.raw
  | none => d

theorem reread_eq_self_iff (d : SchemaDeclaration) : d.reread = d ↔ d.misread? = none := by
  cases d with
  | implicit fields => exact ⟨fun _ => rfl, fun _ => rfl⟩
  | explicit properties =>
    unfold reread
    cases h : (explicit properties).misread? with
    | none => exact ⟨fun _ => rfl, fun _ => rfl⟩
    | some o => exact ⟨nofun, nofun⟩

/-- What entries are read as is decided by the member `implicit` among them. -/
theorem read?_object {ms : List (String × Json)} (hdistinct : (ms.map Prod.fst).Nodup) :
    (read? (object ms).toSource : Option SchemaDeclaration) =
      ((ms.lookup "implicit").bind fun j => (read? j.toSource : Option (OrderedMap Json))).elim
        ((read? (object ms).toSource : Option (OrderedMap TypeOptions)).map explicit)
        (fun fields => some (implicit fields)) := by
  have hrecord : (Json.object ms).toSource.objectRecord? ["implicit"] =
      some (asRecord (ms.filter fun m => decide (m.1 ∈ ["implicit"]))) := by
    show (Source.knownMembers? ["implicit"] (membersToSource ms)).map Record.mk = _
    rw [Source.knownMembers?_membersToSource _ hdistinct]
    rfl
  have hlookup : (ms.filter fun m => decide (m.1 ∈ ["implicit"])).lookup "implicit" =
      ms.lookup "implicit" :=
    Entries.lookup_filter (fun name => decide (name ∈ ["implicit"])) (by decide) ms
  have himplicit : readImplicit? (object ms).toSource =
      ((ms.lookup "implicit").bind fun j =>
        (read? j.toSource : Option (OrderedMap Json))).map implicit := by
    show ((Json.object ms).toSource.objectRecord? ["implicit"]).bind
      (fun r => (r.required? "implicit").bind fun fields => some (implicit fields)) = _
    rw [hrecord, Option.bind_some, Record.required?_asRecord, hlookup]
    exact Option.map_eq_bind.symm
  show (if (Json.object ms).toSource.readable then _ else none) = _
  rw [if_pos (Json.readable_toSource _), himplicit]
  cases (ms.lookup "implicit").bind fun j => (read? j.toSource : Option (OrderedMap Json)) <;> rfl

/-- An implicit declaration that was read has fields that were read. -/
theorem readsBack_of_implicit {s : Source} {fields : OrderedMap Json}
    (h : read? s = some (implicit fields)) : ReadsBack fields := by
  obtain ⟨-, h⟩ := Option.ite_none_right_eq_some.mp h
  split at h
  next d himplicit =>
    cases h
    cases s with
    | object members =>
      obtain ⟨r, -, himplicit⟩ := Option.bind_eq_some_iff.mp himplicit
      obtain ⟨others, hothers, himplicit⟩ := Option.bind_eq_some_iff.mp himplicit
      cases himplicit
      exact readsBack_of_required? hothers
    | _ => cases himplicit
  next =>
    obtain ⟨properties, -, h⟩ := Option.map_eq_some_iff.mp h
    cases h

/-- **What a declaration that was read is read as after it was written.** -/
theorem read?_write {s : Source} {d : SchemaDeclaration} (h : read? s = some d) :
    read? (write d).toSource = some d.reread := by
  cases d with
  | implicit fields =>
    have hfields : read? (write fields).toSource = some fields := readsBack_of_implicit h
    have hdistinct : ((member "implicit" fields).map Prod.fst).Nodup :=
      declared_member.distinct (by decide)
    show read? (Json.object (member "implicit" fields)).toSource = _
    rw [read?_object hdistinct, lookup_member, if_pos rfl, Option.bind_some, hfields]
    rfl
  | explicit properties =>
    have hdistinct : ((properties.entries.map fun e => (e.1, write e.2)).map Prod.fst).Nodup := by
      rw [List.map_map]
      exact properties.distinct
    have hproperties : read? (write properties).toSource = some properties :=
      Exact.readsBack properties
    show read? (Json.object (properties.entries.map fun e => (e.1, write e.2))).toSource = _
    have hmisread : (explicit properties).misread? = properties.entries.lookup "implicit" := rfl
    rw [read?_object hdistinct, Entries.lookup_map, reread, hmisread]
    cases properties.entries.lookup "implicit" with
    | none => exact congrArg (Option.map explicit) hproperties
    | some o => rw [Option.map_some, Option.bind_some, o.read?_write_raw, Option.elim_some]

end SchemaDeclaration

/-! ## Configurations -/

namespace WidgetConfig

/-- The options in a configuration that are taken for fields once they are written. -/
def misread? (c : WidgetConfig) : Option TypeOptions := c.schema.bind SchemaDeclaration.misread?

/-- What a configuration is read as after it was written: the layout is the same. -/
def reread (c : WidgetConfig) : WidgetConfig :=
  { c with schema := c.schema.map SchemaDeclaration.reread }

theorem reread_of_misread?_eq_none {c : WidgetConfig} (h : c.misread? = none) : c.reread = c := by
  obtain ⟨layout, schema⟩ := c
  cases schema with
  | none => rfl
  | some d => rw [reread, Option.map_some, d.reread_eq_self_iff.mpr h]

theorem reread_of_misread? {c : WidgetConfig} {o : TypeOptions} (h : c.misread? = some o) :
    c.reread = { c with schema := some (.implicit o.raw) } := by
  obtain ⟨d, hd, ho⟩ := Option.bind_eq_some_iff.mp h
  rw [reread, hd, Option.map_some, SchemaDeclaration.reread, ho]

/-- **What a configuration that was read is read as after it was written.** -/
theorem read?_write {s : Source} {c : WidgetConfig} (h : read? s = some c) :
    read? (write c).toSource = some c.reread := by
  obtain ⟨r, -, h⟩ := Option.bind_eq_some_iff.mp h
  obtain ⟨layout, hlayout, h⟩ := Option.bind_eq_some_iff.mp h
  obtain ⟨schema, hschema, h⟩ := Option.bind_eq_some_iff.mp h
  cases h
  have hempty : ReadsBack Layout.empty := rfl
  have hgroups : read? (write layout).toSource = some layout :=
    readsBack_of_withDefault? hempty hlayout
  have hdeclaration : schema.elim (some none) (readNullable? ∘ write) =
      some (schema.map SchemaDeclaration.reread) := by
    cases schema with
    | none => rfl
    | some d =>
      obtain ⟨place, hplace⟩ := exists_read_of_optional? hschema d rfl
      exact readNullable?_of_read? (SchemaDeclaration.read?_write hplace) rfl
  refine read?_record rfl (fun _ => rfl) (by decide) ?declared ?parts
  case declared => exact .append declared_member declared_memberIfSome
  case parts => simp [List.lookup_append, hgroups, hdeclaration, reread]

end WidgetConfig

/-- **Configurations come back**, and whoever sends one to a session by its written form has the
same effect as by handing it over, unless options in it are misread.  Then the layout comes back
with an implicit declaration, whose fields are the members that the options are written as. -/
theorem configurations_come_back {s : Source} {c : WidgetConfig} (h : read? s = some c) :
    (c.misread? = none → ComesBack c ∧ ComesBack (Operation.configLoaded c) ∧
      ∀ session : Session,
        (read? (write (Operation.configLoaded c)).toSource : Option Operation).map session.handle =
          some (session.handle (.configLoaded c))) ∧
    ∀ o, c.misread? = some o →
      read? (write c).toSource = some { c with schema := some (.implicit o.raw) } := by
  have hread := WidgetConfig.read?_write h
  constructor
  · intro hnone
    rw [WidgetConfig.reread_of_misread?_eq_none hnone] at hread
    have hoperation : ReadsBack (Operation.configLoaded c) :=
      Operation.readsBack_configLoaded hread
    refine ⟨ReadsBack.comesBack hread, hoperation.comesBack, fun session => ?_⟩
    rw [hoperation.read?_eq, Option.map_some]
  · intro o ho
    rw [hread, WidgetConfig.reread_of_misread? ho]

/-- A configuration given by arrays, with a repeated member and a repeated property. -/
def arraySpelling : Source :=
  .array [
    .object [
      (.text "general", .array [.string "General", .array [.string "format"],
        .object [(.text "format", .object [(.text "placeholder", .string "csv"),
          (.text "widget", .string "select"), (.text "placeholder", .bool true)])]]),
      (.text "position", .array [.string "general"])],
    .object [
      (.text "outputSchema", .object []),
      (.text "body", .array []),
      (.text "outputSchema", .array [.array [.string "string"], .null, .string "format"])]]

/-- What it is read as. -/
def arrayConfig : WidgetConfig where
  layout := ⟨["general"], SortedMap.ofList [("general", ⟨"General", ["format"],
    SortedMap.ofList [("format", { FieldWidget.plain with
      widget := some "select"
      attributes := SortedMap.ofList [("placeholder", .bool true)] })]⟩)]⟩
  schema := some (.explicit (OrderedMap.ofList
    [("outputSchema", ⟨["string"], none, some "format"⟩), ("body", ⟨[], none, none⟩)]))

/-- A declaration of one property, which is named `implicit` and whose options are an array. -/
def implicitProperty : Source :=
  .object [(.text "outputschema", .object [(.text "implicit", .array [.array [.string "int"]])])]

/-- What it is read as. -/
def implicitPropertyConfig : WidgetConfig where
  layout := Layout.empty
  schema := some (.explicit (OrderedMap.ofList [("implicit", ⟨["int"], none, none⟩)]))

/-- The first configuration comes back, and the second loses the kind of its declaration. -/
theorem configurations_come_back_arrays :
    read? arraySpelling = some arrayConfig ∧ ComesBack arrayConfig ∧
      read? implicitProperty = some implicitPropertyConfig ∧
      read? (write implicitPropertyConfig).toSource =
        some { implicitPropertyConfig with
          schema := some (.implicit (TypeOptions.raw ⟨["int"], none, none⟩)) } := by
  have harrays : read? arraySpelling = some arrayConfig := rfl
  have hproperty : read? implicitProperty = some implicitPropertyConfig := rfl
  exact ⟨harrays, ((configurations_come_back harrays).1 rfl).1, hproperty,
    (configurations_come_back hproperty).2 _ rfl⟩

/-- **An explicit declaration of a property named `implicit` does not come back.** -/
theorem implicit_property_misread :
    read? implicitProperty = some implicitPropertyConfig ∧
      ¬ ReadsBack implicitPropertyConfig := by
  refine ⟨rfl, fun h => ?_⟩
  have hreread : read? (write implicitPropertyConfig).toSource =
      some { implicitPropertyConfig with
        schema := some (.implicit (TypeOptions.raw ⟨["int"], none, none⟩)) } := rfl
  rw [ReadsBack, hreread] at h
  cases h

end PipelineEditor
