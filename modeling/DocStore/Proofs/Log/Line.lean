import DocStore.Log.Line
import DocStore.Proofs.Json.Ascii
import DocStore.Proofs.Json.Showable
import Mathlib.Data.List.Nodup

/-!
# What a line of JSON tells

A line of JSON is printable ASCII and is read back as an object that tells
its record (`writtenLine_tells`): the fields that come first are the
record's own, whatever the further fields are called, and each further
field of another name has its value (`Tells`). There is such a line unless
the instant cannot be written, the message cannot be shown, or a further
field that goes into the line holds an integer of too many digits.

The further fields are added one after the other, and none takes a place
that is taken. So the field of a name is the one that came first or else
the first further one (`get?_jsonFields`), and no name stands twice in a
line (`nodup_keys_jsonFields`).
-/

namespace DocStore

/-! ## Values that can be shown -/

namespace Json

/-- What can be shown is short enough to be read. -/
theorem readable_of_isShowable {v : Json} (hkeyed : v.Keyed) (hfree : v.DoubleFree)
    (h : v.isShowable = true) : v.Readable := by
  induction v using induct with
  | null | bool _ | str _ => exact trivial
  | int n =>
      rw [isShowable, decide_eq_true_iff] at h
      exact h
  | float x => exact absurd .self (hfree x)
  | arr vs ih =>
      rw [isShowable, areShowable_iff] at h
      refine readableElements_iff.mpr fun v hv => ?_
      exact ih v hv (hkeyed.element hv) (hfree.element hv) (h v hv)
  | obj fs ih =>
      rw [isShowable, fieldsShowable_iff] at h
      refine ⟨hkeyed.nodup, readableFields_iff.mpr fun f hf => ?_⟩
      exact ih f hf (hkeyed.field hf) (hfree.field hf) (h f hf)

end Json

namespace Log

/-! ## Adding further fields -/

theorem get?_addField (fields : Fields) (field : String × Json) (name : String) :
    Table.get? (addField fields field) name =
      (Table.get? fields name).or
        (if name ∈ reservedNames then none else Table.get? [field] name) := by
  by_cases hname : field.1 = name
  · subst hname
    by_cases hreserved : field.1 ∈ reservedNames
    · simp [addField, hreserved]
    · by_cases hhas : Table.has fields field.1 = true
      · obtain ⟨v, hv⟩ := Option.isSome_iff_exists.mp hhas
        simp [addField, hhas, hv]
      · simp [addField, hreserved, hhas, Table.get?_append]
  · have hother : Table.get? [field] name = none := by simp [Table.get?, hname]
    rw [addField, hother, ite_self, Option.or_none]
    split
    · rfl
    · rw [Table.get?_append, hother, Option.or_none]

theorem nodup_keys_addField {fields : Fields} (field : String × Json)
    (h : fields.keys.Nodup) : (addField fields field).keys.Nodup := by
  rw [addField]
  split
  · exact h
  · rename_i hfree
    rw [Bool.or_eq_true, not_or, Table.has_iff_mem_keys] at hfree
    rw [Table.keys, List.map_append]
    exact h.append (List.nodup_singleton _) (List.disjoint_singleton.mpr hfree.2)

/-- What has a place keeps it, and of further fields the first one of a
name is added. -/
theorem get?_foldl_addField (fields extra : Fields) (name : String) :
    Table.get? (extra.foldl addField fields) name =
      (Table.get? fields name).or
        (if name ∈ reservedNames then none else Table.get? extra name) := by
  induction extra generalizing fields with
  | nil => simp [Table.get?]
  | cons field rest ih =>
      rw [List.foldl_cons, ih, get?_addField, Option.or_assoc]
      split
      · rfl
      · rw [← Table.get?_append]
        rfl

/-! ## The fields of a line -/

/-- The names of the fields that come first. -/
def ownNames (correlation : Option String) : List String :=
  ["timestamp", "level", "module", "message"] ++
    ((shownCorrelation correlation).map fun _ => "correlation_id").toList

/-- A further field of this name goes into a line. -/
def IsFurther (correlation : Option String) (name : String) : Prop :=
  name ∉ reservedNames ∧ name ∉ ownNames correlation

section Fields

variable (created : Instant) (correlation : Option String) (message : String) (r : Record)

theorem keys_leadFields : (leadFields created correlation message r).keys = ownNames correlation := by
  unfold leadFields ownNames
  cases shownCorrelation correlation <;> rfl

theorem nodup_ownNames : (ownNames correlation).Nodup := by
  unfold ownNames
  cases shownCorrelation correlation with
  | none => decide
  | some s => exact of_decide_eq_true rfl

theorem get?_jsonFields (name : String) :
    Table.get? (jsonFields created correlation message r) name =
      (Table.get? (leadFields created correlation message r) name).or
        (if name ∈ reservedNames then none else Table.get? r.extra name) :=
  get?_foldl_addField ..

theorem nodup_keys_jsonFields : (jsonFields created correlation message r).keys.Nodup := by
  have hlead : (leadFields created correlation message r).keys.Nodup := by
    rw [keys_leadFields]
    exact nodup_ownNames correlation
  rw [jsonFields]
  generalize leadFields created correlation message r = fields at hlead
  induction r.extra generalizing fields with
  | nil => exact hlead
  | cons field rest ih => exact ih _ (nodup_keys_addField field hlead)

variable {created correlation message r}

theorem exists_str_of_mem_leadFields {field : String × Json}
    (h : field ∈ leadFields created correlation message r) : ∃ s, field.2 = .str s := by
  rw [leadFields, List.mem_append] at h
  rcases h with h | h
  · simp only [List.mem_cons, List.not_mem_nil, or_false] at h
    rcases h with rfl | rfl | rfl | rfl <;> exact ⟨_, rfl⟩
  · obtain ⟨s, -, rfl⟩ := Option.map_eq_some_iff.mp (Option.mem_toList.mp h)
    exact ⟨s, rfl⟩

theorem get?_of_isFurther {name : String} (h : IsFurther correlation name) :
    Table.get? (jsonFields created correlation message r) name = Table.get? r.extra name := by
  have hlead : name ∉ (leadFields created correlation message r).keys := by
    rw [keys_leadFields]
    exact h.2
  rw [get?_jsonFields, Table.get?_of_not_mem hlead, Option.none_or, if_neg h.1]

/-- A field of a line is one of those that come first or a further one. -/
theorem mem_jsonFields_cases {name : String} {value : Json}
    (h : (name, value) ∈ jsonFields created correlation message r) :
    (name, value) ∈ leadFields created correlation message r ∨
      IsFurther correlation name ∧ Table.get? r.extra name = some value := by
  have hget := Table.get?_of_mem (nodup_keys_jsonFields created correlation message r) h
  rw [get?_jsonFields, Option.or_eq_some_iff] at hget
  rcases hget with hlead | ⟨hlead, hextra⟩
  · exact .inl (Table.mem_of_get? hlead)
  · have hown : name ∉ ownNames correlation := by
      rw [← keys_leadFields created correlation message r]
      intro hname
      obtain ⟨own, hown⟩ := Table.exists_get?_of_mem_keys hname
      rw [hlead] at hown
      cases hown
    split at hextra
    · cases hextra
    · rename_i hreserved
      exact .inr ⟨⟨hreserved, hown⟩, hextra⟩

/-- What goes for texts and for the further fields of a line goes for all
of its fields. -/
theorem forall_mem_jsonFields {p : Json → Prop} (hstr : ∀ s, p (.str s))
    (hfurther : ∀ name value, IsFurther correlation name →
      Table.get? r.extra name = some value → p value) :
    ∀ field ∈ jsonFields created correlation message r, p field.2 := by
  rintro ⟨name, value⟩ hfield
  rcases mem_jsonFields_cases hfield with hlead | ⟨hname, hvalue⟩
  · obtain ⟨s, rfl⟩ := exists_str_of_mem_leadFields hlead
    exact hstr s
  · exact hfurther name value hname hvalue

theorem isShowable_jsonFields_iff :
    (Json.obj (jsonFields created correlation message r)).isShowable = true ↔
      ∀ name value, IsFurther correlation name → Table.get? r.extra name = some value →
        value.isShowable = true := by
  rw [Json.isShowable, Json.fieldsShowable_iff]
  constructor
  · intro h name value hname hvalue
    rw [← get?_of_isFurther hname] at hvalue
    exact h _ (Table.mem_of_get? hvalue)
  · exact forall_mem_jsonFields fun _ => rfl

/-- A line can be read back if the values of its further fields can. -/
theorem readable_jsonFields (h : ∀ name value, IsFurther correlation name →
    Table.get? r.extra name = some value → value.Readable) :
    (Json.obj (jsonFields created correlation message r)).Readable := by
  refine ⟨nodup_keys_jsonFields .., Json.readableFields_iff.mpr ?_⟩
  exact forall_mem_jsonFields (fun _ => trivial) h

end Fields

/-! ## Lines -/

section Lines

variable {created : Instant} {correlation : Option String} {message : String} {r : Record}

theorem parse_jsonLine (h : (Json.obj (jsonFields created correlation message r)).Readable) :
    Json.parse (jsonLine created correlation message r) =
      .ok (.obj (jsonFields created correlation message r)) := by
  rw [Json.parse, jsonLine, Json.write, String.toList_ofList]
  exact Json.parseChars_writeChars Json.spacesOnly_spacedAscii h

theorem isPrintable_jsonLine (h : (Json.obj (jsonFields created correlation message r)).Readable) :
    ∀ c ∈ (jsonLine created correlation message r).toList, Json.IsPrintable c := by
  rw [jsonLine, Json.write, String.toList_ofList]
  exact Json.isPrintable_of_mem_writeChars Json.asciiLayout_spacedAscii _ h

theorem checkInstant_eq_ok_iff {e? : Option Clock.Fault} {u : Unit} :
    checkInstant e? = .ok u ↔ e? = none := by
  cases e? <;> simp [checkInstant]

theorem writtenLine_json_eq_ok_iff {text : String} :
    writtenLine .json created correlation r = .ok text ↔
      Clock.isoFault? created = none ∧ ∃ message, r.message.render = .ok message ∧
        (Json.obj (jsonFields created correlation message r)).isShowable = true ∧
        jsonLine created correlation message r = text := by
  unfold writtenLine
  simp only [bind_eq_ok_iff, checkInstant_eq_ok_iff, mapError_eq_ok_iff]
  constructor
  · rintro ⟨-, hinstant, message, hmessage, h⟩
    split at h
    · exact ⟨hinstant, message, hmessage, ‹_›, Except.ok.inj h⟩
    · cases h
  · rintro ⟨hinstant, message, hmessage, hshowable, rfl⟩
    exact ⟨(), hinstant, message, hmessage, if_pos hshowable⟩

/-- The fields tell what the record is. Its own fields are there, and no
further field stands in their places; an empty correlation id counts as
none. Each further field of another name is there with its value, unless
its name is reserved; and there are no other fields. -/
structure Tells (created : Instant) (correlation : Option String) (r : Record)
    (fields : Fields) : Prop where
  timestamp : fields.get? "timestamp" = some (.str (Clock.iso created))
  level : fields.get? "level" = some (.str (levelName r.level))
  logger : fields.get? "module" = some (.str r.logger)
  message : ∃ s, r.message.render = .ok s ∧ fields.get? "message" = some (.str s)
  correlationId : ∀ s, shownCorrelation correlation = some s →
    fields.get? "correlation_id" = some (.str s)
  further : ∀ name, IsFurther correlation name → fields.get? name = r.extra.get? name
  nothingElse : ∀ name ∈ fields.keys, name ∈ ownNames correlation ∨ IsFurther correlation name

theorem tells_jsonFields (h : r.message.render = .ok message) :
    Tells created correlation r (jsonFields created correlation message r) where
  timestamp := by rw [get?_jsonFields]; rfl
  level := by rw [get?_jsonFields]; rfl
  logger := by rw [get?_jsonFields]; rfl
  message := ⟨message, h, by rw [get?_jsonFields]; rfl⟩
  correlationId s hs := by
    rw [get?_jsonFields, leadFields, hs]
    rfl
  further _ hname := get?_of_isFurther hname
  nothingElse name hname := by
    obtain ⟨value, hvalue⟩ := Table.exists_get?_of_mem_keys hname
    rcases mem_jsonFields_cases (Table.mem_of_get? hvalue) with hlead | ⟨hfurther, -⟩
    · rw [← keys_leadFields created correlation message r]
      exact .inl (List.mem_map_of_mem hlead)
    · exact .inr hfurther

end Lines

/-- **A line of JSON cannot be forged.** A record whose further fields
hold no doubles has a line exactly if its instant can be written, and its
message and the further fields that go into the line can be shown. The
line is printable ASCII, without a line break, and is read back as an
object that tells the record. -/
theorem writtenLine_tells (created : Instant) (correlation : Option String) (r : Record)
    (hextra : ∀ field ∈ r.extra, field.2.Keyed ∧ field.2.DoubleFree) :
    ((∃ text, writtenLine .json created correlation r = .ok text) ↔
      Clock.isoFault? created = none ∧ (∃ message, r.message.render = .ok message) ∧
        ∀ name value, IsFurther correlation name → r.extra.get? name = some value →
          value.isShowable = true) ∧
    ∀ text, writtenLine .json created correlation r = .ok text →
      (∀ c ∈ text.toList, Json.IsPrintable c) ∧
        ∃ fields : Fields, Json.parse text = .ok (.obj fields) ∧
          Tells created correlation r fields := by
  refine ⟨⟨?_, ?_⟩, fun text htext => ?_⟩
  · rintro ⟨text, htext⟩
    obtain ⟨hinstant, message, hmessage, hshowable, -⟩ := writtenLine_json_eq_ok_iff.mp htext
    exact ⟨hinstant, ⟨message, hmessage⟩, isShowable_jsonFields_iff.mp hshowable⟩
  · rintro ⟨hinstant, ⟨message, hmessage⟩, hshowable⟩
    exact ⟨_, writtenLine_json_eq_ok_iff.mpr
      ⟨hinstant, message, hmessage, isShowable_jsonFields_iff.mpr hshowable, rfl⟩⟩
  · obtain ⟨-, message, hmessage, hshowable, rfl⟩ := writtenLine_json_eq_ok_iff.mp htext
    rw [isShowable_jsonFields_iff] at hshowable
    have hread : (Json.obj (jsonFields created correlation message r)).Readable := by
      refine readable_jsonFields fun name value hname hvalue => ?_
      obtain ⟨hkeyed, hfree⟩ := hextra _ (Table.mem_of_get? hvalue)
      exact Json.readable_of_isShowable hkeyed hfree (hshowable name value hname hvalue)
    exact ⟨isPrintable_jsonLine hread, _, parse_jsonLine hread, tells_jsonFields hmessage⟩

/-- A message that looks like the end of its line, and further fields that
are called as the record's own. -/
theorem writtenLine_tells_imposters :
    let message := "😀\x22\x7d\n\x7b\x22level\x22: \x22ERROR"
    let note : Json := .obj [("é", .int (-7))]
    let r : Record := ⟨"store", info, .text message,
      [("timestamp", .str "never"), ("correlation_id", .str "mine"), ("note", note)]⟩
    (∀ field ∈ r.extra, field.2.Keyed ∧ field.2.DoubleFree) ∧
      ∃ text, writtenLine .json (.whole 0) (some "q") r = .ok text ∧
        (∀ c ∈ text.toList, Json.IsPrintable c) ∧
        ∃ fields : Fields, Json.parse text = .ok (.obj fields) ∧
          fields.get? "timestamp" = some (.str "1970-01-01T00:00:00+00:00") ∧
          fields.get? "level" = some (.str "INFO") ∧
          fields.get? "message" = some (.str message) ∧
          fields.get? "correlation_id" = some (.str "q") ∧
          fields.get? "note" = some note := by
  intro message note r
  have hstr : ∀ s, (Json.str s).Keyed ∧ (Json.str s).DoubleFree := by
    intro s
    constructor <;> (intro _ h; cases h)
  have hobj : (Json.obj [("é", .int (-7))]).Keyed ∧ (Json.obj [("é", .int (-7))]).DoubleFree := by
    constructor
    · intro fields h
      cases h with
      | self => decide
      | field h hmem =>
          obtain ⟨-, rfl⟩ := Prod.mk.inj (List.mem_singleton.mp hmem)
          cases h
    · intro x h
      cases h with
      | field h hmem =>
          obtain ⟨-, rfl⟩ := Prod.mk.inj (List.mem_singleton.mp hmem)
          cases h
  have hextra : ∀ field ∈ r.extra, field.2.Keyed ∧ field.2.DoubleFree := by
    simpa [r] using ⟨hstr "never", hstr "mine", hobj⟩
  obtain ⟨hwritten, htells⟩ := writtenLine_tells (.whole 0) (some "q") r hextra
  have hclock : Clock.isoFault? (.whole 0) = none := by decide +kernel
  have hshowable : ∀ field ∈ r.extra, field.2.isShowable = true := by decide +kernel
  obtain ⟨text, htext⟩ := hwritten.mpr ⟨hclock, ⟨message, Message.render_text message⟩,
    fun _ _ _ h => hshowable _ (Table.mem_of_get? h)⟩
  obtain ⟨hprintable, fields, hparse, h⟩ := htells text htext
  have hnote : IsFurther (some "q") "note" := by
    unfold IsFurther
    decide
  have htime : Clock.iso (.whole 0) = "1970-01-01T00:00:00+00:00" := by decide +kernel
  obtain ⟨shown, hshown, hmessage⟩ := h.message
  obtain rfl := Except.ok.inj hshown
  exact ⟨hextra, text, htext, hprintable, fields, hparse, htime ▸ h.timestamp, h.level, hmessage,
    h.correlationId "q" rfl, h.further "note" hnote⟩

end Log

end DocStore
