import DocStore.Log.Logbook
import DocStore.Proofs.Log.Line
import DocStore.Query.Journal
import Mathlib.Control.Monad.Basic
import Mathlib.Data.List.Forall2

/-!
# Account keys in the log

Two messages that differ in account keys alone, `AccountKey=one;` in one
and `AccountKey=two;` in the other (`SameButKeys`), are the same once
they are redacted (`redact_eq`). The sinks of a logbook redact what they
write, so the lines are the same too, whatever the logbook
(`addAll_eq`).

That goes for the text or the template of a message. Arguments and
further fields are not redacted, and bring a key into the line
(`jsonLine_tells_keys`).
-/

namespace DocStore.Log

/-! ## Matching -/

/-- What stands behind the end of the text stands behind the word. -/
theorem afterWord_append {w cs rest : List Char} (h : afterWord w cs = some rest)
    (behind : List Char) : afterWord w (cs ++ behind) = some (rest ++ behind) := by
  induction w generalizing cs with
  | nil =>
      cases h
      rfl
  | cons x w ih =>
      cases cs with
      | nil => cases h
      | cons c cs =>
          rw [afterWord] at h
          split at h
          · rename_i hc
            rw [List.cons_append, afterWord, if_pos hc, ih h]
          · cases h

/-- A text that is all word has no characters but those of the word. -/
theorem plainLetter_mem_of_afterWord {w cs : List Char} (h : afterWord w cs = some []) :
    ∀ c ∈ cs, plainLetter c ∈ w := by
  induction w generalizing cs with
  | nil =>
      cases h
      simp
  | cons x w ih =>
      cases cs with
      | nil => cases h
      | cons c cs =>
          rw [afterWord] at h
          split at h
          · rename_i hc
            rw [List.forall_mem_cons]
            exact ⟨hc ▸ List.mem_cons_self .., fun d hd => List.mem_cons_of_mem x (ih h d hd)⟩
          · cases h

/-- The first character tells whether there is a match. -/
theorem afterSome_eq (p : Char → Bool) (cs : List Char) :
    afterSome p cs = if cs.head?.any p = true then some (cs.dropWhile p) else none := by
  cases cs with
  | nil => rfl
  | cons c cs =>
      rw [afterSome, List.head?_cons, Option.any_some]
      split
      · rw [List.dropWhile_cons_of_pos ‹_›]
      · rfl

theorem afterSome_suffix {p : Char → Bool} {cs rest : List Char}
    (h : afterSome p cs = some rest) : rest <:+ cs := by
  cases cs with
  | nil => cases h
  | cons c cs =>
      rw [afterSome] at h
      split at h
      · cases h
        exact (List.dropWhile_suffix p).trans (List.suffix_cons c cs)
      · cases h

/-! ## Hiding -/

namespace Secret

variable {s : Secret} {c : Char} {cs rest lead : List Char}

theorem hideAfter_append (s : Secret) (skipped cs : List Char) :
    s.hideAfter skipped.length (skipped ++ cs) = s.hide cs := by
  induction skipped with
  | nil => rfl
  | cons c skipped ih => exact ih

/-- A secret is split at its lead and its value. -/
theorem split?_append (hlead : s.lead (lead ++ cs) = some cs) (hvalue : s.value cs = some rest) :
    s.split? (lead ++ cs) = some (lead, rest) := by
  have htake : (lead ++ cs).take ((lead ++ cs).length - cs.length) = lead := by
    rw [List.length_append, Nat.add_sub_cancel, List.take_left]
  simp only [split?, hlead, hvalue, htake, Option.bind_eq_bind, Option.bind_some, Option.pure_def]

theorem split?_of_value_none (hlead : s.lead (lead ++ cs) = some cs) (hvalue : s.value cs = none) :
    s.split? (lead ++ cs) = none := by
  simp only [split?, hlead, hvalue, Option.bind_eq_bind, Option.bind_some, Option.bind_none]

theorem split?_of_lead_none (hlead : s.lead cs = none) : s.split? cs = none := by
  simp only [split?, hlead, Option.bind_eq_bind, Option.bind_none]

theorem hide_cons_of_none (h : s.split? (c :: cs) = none) : s.hide (c :: cs) = c :: s.hide cs := by
  simp only [hide, hideAfter, h]

theorem hide_cons_of_some (h : s.split? (c :: cs) = some (lead, rest)) (hrest : rest <:+ cs) :
    s.hide (c :: cs) = lead ++ mark ++ s.hide rest := by
  obtain ⟨skipped, rfl⟩ := hrest
  have hlength : (skipped ++ rest).length - rest.length = skipped.length := by simp
  rw [hide, hideAfter, h]
  simp only [hlength, hideAfter_append]

end Secret

/-! ## Texts that differ in account keys -/

/-- What stands in front of an account key. -/
def IsKeyLead (lead : List Char) : Prop :=
  afterWord "accountkey=".toList lead = some []

/-- An account key: there is something to it, and no semicolon. -/
def IsKey (key : List Char) : Prop :=
  key ≠ [] ∧ ';' ∉ key

/-- Two texts that are the same but for account keys, each of them up to
the next semicolon. -/
inductive SameButKeys : List Char → List Char → Prop where
  | nil : SameButKeys [] []
  | char (c : Char) {cs ds : List Char} (behind : SameButKeys cs ds) :
      SameButKeys (c :: cs) (c :: ds)
  | key {lead key other cs ds : List Char} (hlead : IsKeyLead lead) (hkey : IsKey key)
      (hother : IsKey other) (behind : SameButKeys cs ds) :
      SameButKeys (lead ++ (key ++ ';' :: cs)) (lead ++ (other ++ ';' :: ds))

variable {cs ds lead key : List Char}

theorem toList_accountkey : "accountkey=".toList = 'a' :: "ccountkey=".toList := rfl

/-- A lead starts with a letter that stands nowhere else in the word. -/
theorem exists_cons_of_isKeyLead (h : IsKeyLead lead) :
    ∃ c rest, lead = c :: rest ∧ plainLetter c = 'a' := by
  rw [IsKeyLead, toList_accountkey] at h
  cases lead with
  | nil => cases h
  | cons c rest =>
      refine ⟨c, rest, rfl, ?_⟩
      by_contra hc
      rw [afterWord, if_neg hc] at h
      cases h

theorem semicolon_notMem_of_isKeyLead (h : IsKeyLead lead) : ';' ∉ lead := by
  intro hmem
  exact absurd (plainLetter_mem_of_afterWord h _ hmem) (by decide)

theorem dropWhile_key (h : ';' ∉ key) (cs : List Char) :
    (key ++ ';' :: cs).dropWhile (· != ';') = ';' :: cs := by
  rw [List.dropWhile_append_of_pos fun c hc => by simpa using ne_of_mem_of_not_mem hc h,
    List.dropWhile_cons_of_neg (by simp)]

/-- The lead and the key are taken out at once. -/
theorem split?_key (hlead : IsKeyLead lead) (hkey : IsKey key) (cs : List Char) :
    Secret.accountKey.split? (lead ++ (key ++ ';' :: cs)) = some (lead, ';' :: cs) := by
  refine Secret.split?_append (afterWord_append hlead _) ((afterSome_eq _ _).trans ?_)
  rw [dropWhile_key hkey.2, if_pos]
  obtain ⟨c, rest, rfl⟩ := List.exists_cons_of_ne_nil hkey.1
  simpa using (List.ne_and_not_mem_of_not_mem_cons hkey.2).1.symm

namespace SameButKeys

theorem refl (cs : List Char) : SameButKeys cs cs := by
  induction cs with
  | nil => exact nil
  | cons c cs ih => exact ih.char c

theorem append_left (lead : List Char) (h : SameButKeys cs ds) :
    SameButKeys (lead ++ cs) (lead ++ ds) := by
  induction lead with
  | nil => exact h
  | cons c lead ih => exact ih.char c

theorem head?_eq (h : SameButKeys cs ds) : cs.head? = ds.head? := by
  cases h with
  | nil => rfl
  | char c behind => rfl
  | key hlead hkey hother behind =>
      obtain ⟨c, rest, rfl, -⟩ := exists_cons_of_isKeyLead hlead
      rfl

theorem dropWhile (h : SameButKeys cs ds) :
    SameButKeys (cs.dropWhile (· != ';')) (ds.dropWhile (· != ';')) := by
  induction h with
  | nil => exact nil
  | char c behind ih =>
      rw [List.dropWhile_cons, List.dropWhile_cons]
      split
      · exact ih
      · exact behind.char c
  | @key lead key other cs ds hlead hkey hother behind ih =>
      have hsemicolon := semicolon_notMem_of_isKeyLead hlead
      rw [← List.append_assoc, ← List.append_assoc, dropWhile_key, dropWhile_key]
      · exact behind.char ';'
      · simp [hsemicolon, hother.2]
      · simp [hsemicolon, hkey.2]

/-- A key is seen as far in the one text as in the other. -/
theorem value (h : SameButKeys cs ds) :
    (Secret.accountKey.value cs = none ∧ Secret.accountKey.value ds = none) ∨
      ∃ rest rest', Secret.accountKey.value cs = some rest ∧
        Secret.accountKey.value ds = some rest' ∧ SameButKeys rest rest' := by
  have heq : ∀ cs, Secret.accountKey.value cs =
      if cs.head?.any (· != ';') = true then some (cs.dropWhile (· != ';')) else none :=
    afterSome_eq _
  rw [heq, heq, h.head?_eq]
  split
  · exact .inr ⟨_, _, rfl, rfl, h.dropWhile⟩
  · exact .inl ⟨rfl, rfl⟩

/-- No lead starts in the middle of a word that has no `a`, so the word
is found in both texts or in none. -/
theorem afterWord {w : List Char} (hw : 'a' ∉ w) (h : SameButKeys cs ds) :
    (Log.afterWord w cs = none ∧ Log.afterWord w ds = none) ∨
      ∃ word rest rest', cs = word ++ rest ∧ ds = word ++ rest' ∧
        Log.afterWord w cs = some rest ∧ Log.afterWord w ds = some rest' ∧
        SameButKeys rest rest' := by
  induction w generalizing cs ds with
  | nil => exact .inr ⟨[], cs, ds, rfl, rfl, rfl, rfl, h⟩
  | cons x w ih =>
      obtain ⟨hx, hw⟩ := List.ne_and_not_mem_of_not_mem_cons hw
      cases h with
      | nil => exact .inl ⟨rfl, rfl⟩
      | char c behind =>
          rw [Log.afterWord, Log.afterWord]
          split
          · refine (ih hw behind).imp id ?_
            rintro ⟨word, rest, rest', rfl, rfl, hcs, hds, hrest⟩
            exact ⟨c :: word, rest, rest', rfl, rfl, hcs, hds, hrest⟩
          · exact .inl ⟨rfl, rfl⟩
      | key hlead hkey hother behind =>
          obtain ⟨c, lead, rfl, hc⟩ := exists_cons_of_isKeyLead hlead
          have hcx : plainLetter c ≠ x := hc ▸ hx
          simp only [List.cons_append, Log.afterWord, if_neg hcx, true_and, true_or]

/-- A secret at the start of one text stands at the start of the other,
behind the same lead. -/
theorem split?_char (c : Char) (h : SameButKeys cs ds) :
    (Secret.accountKey.split? (c :: cs) = none ∧ Secret.accountKey.split? (c :: ds) = none) ∨
      ∃ lead rest rest', Secret.accountKey.split? (c :: cs) = some (lead, rest) ∧
        Secret.accountKey.split? (c :: ds) = some (lead, rest') ∧
        rest <:+ cs ∧ rest' <:+ ds ∧ SameButKeys rest rest' := by
  have hlead : ∀ cs, Secret.accountKey.lead (c :: cs) =
      if plainLetter c = 'a' then Log.afterWord "ccountkey=".toList cs else none :=
    fun _ => rfl
  by_cases hc : plainLetter c = 'a'
  · simp only [if_pos hc] at hlead
    obtain ⟨hcs, hds⟩ | ⟨word, rest, rest', rfl, rfl, hcs, hds, hrest⟩ :=
      h.afterWord (w := "ccountkey=".toList) (by decide)
    · exact .inl ⟨Secret.split?_of_lead_none ((hlead _).trans hcs),
        Secret.split?_of_lead_none ((hlead _).trans hds)⟩
    have hcs := (hlead _).trans hcs
    have hds := (hlead _).trans hds
    rw [← List.cons_append] at hcs hds ⊢
    obtain ⟨hkey, hkey'⟩ | ⟨behind, behind', hkey, hkey', hbehind⟩ := hrest.value
    · exact .inl ⟨Secret.split?_of_value_none hcs hkey, Secret.split?_of_value_none hds hkey'⟩
    · exact .inr ⟨c :: word, behind, behind', Secret.split?_append hcs hkey,
        Secret.split?_append hds hkey', (afterSome_suffix hkey).trans (List.suffix_append ..),
        (afterSome_suffix hkey').trans (List.suffix_append ..), hbehind⟩
  · simp only [if_neg hc] at hlead
    exact .inl ⟨Secret.split?_of_lead_none (hlead _), Secret.split?_of_lead_none (hlead _)⟩

/-- Once their account keys are hidden, the texts are the same. -/
theorem hide_eq (h : SameButKeys cs ds) :
    Secret.accountKey.hide cs = Secret.accountKey.hide ds := by
  -- A secret may reach over several constructors, so the induction is on the length.
  induction hn : cs.length using Nat.strongRecOn generalizing cs ds with
  | _ n ih =>
      cases h with
      | nil => rfl
      | @char c cs ds behind =>
          obtain ⟨hcs, hds⟩ | ⟨lead, rest, rest', hcs, hds, hrest, hrest', hbehind⟩ :=
            behind.split?_char c
          · rw [Secret.hide_cons_of_none hcs, Secret.hide_cons_of_none hds,
              ih cs.length (by simp [← hn]) behind rfl]
          · have hlt : rest.length < n := by
              have := hrest.length_le
              simp only [← hn, List.length_cons]
              omega
            rw [Secret.hide_cons_of_some hcs hrest, Secret.hide_cons_of_some hds hrest',
              ih rest.length hlt hbehind rfl]
      | @key lead key other cs ds hlead hkey hother behind =>
          have hcs := split?_key hlead hkey cs
          have hds := split?_key hlead hother ds
          obtain ⟨c, word, rfl, -⟩ := exists_cons_of_isKeyLead hlead
          have hsuffix : ∀ key rest : List Char, ';' :: rest <:+ word ++ (key ++ ';' :: rest) :=
            fun key rest => (List.suffix_append ..).trans (List.suffix_append ..)
          have hlt : (';' :: cs).length < n := by
            have := (hsuffix key cs).length_le
            simp only [← hn, List.cons_append, List.length_cons] at this ⊢
            omega
          rw [List.cons_append] at hcs hds ⊢
          rw [List.cons_append, Secret.hide_cons_of_some hcs (hsuffix key cs),
            Secret.hide_cons_of_some hds (hsuffix other ds), ih _ hlt (behind.char ';') rfl]

end SameButKeys

/-! ## Records that differ in account keys -/

/-- Two messages that are the same but for account keys in the text or
the template. -/
inductive Message.SameButKeys : Message → Message → Prop where
  | template {s t : String} (h : Log.SameButKeys s.toList t.toList) (arguments : List Json) :
      Message.SameButKeys ⟨.str s, arguments⟩ ⟨.str t, arguments⟩
  | same (m : Message) : Message.SameButKeys m m

/-- Two records that are the same but for account keys in the text or
the template of the message. -/
structure Record.SameButKeys (r r' : Record) : Prop where
  logger : r.logger = r'.logger
  level : r.level = r'.level
  message : r.message.SameButKeys r'.message
  extra : r.extra = r'.extra

theorem redact_eq {s t : String} (h : SameButKeys s.toList t.toList) : redact s = redact t := by
  simp only [redact, Secret.all, List.foldl_cons, h.hide_eq]

theorem Message.SameButKeys.redacted_eq {m m' : Message} (h : m.SameButKeys m') :
    m.redacted = m'.redacted := by
  cases h with
  | template h arguments => exact congrArg (fun s => (⟨.str s, arguments⟩ : Message)) (redact_eq h)
  | same m => rfl

theorem Record.SameButKeys.redacted_eq {r r' : Record} (h : r.SameButKeys r') :
    r.redacted = r'.redacted := by
  simp only [Record.redacted, h.logger, h.level, h.message.redacted_eq, h.extra]

namespace Logbook

/-- Sinks write nothing of a record but what is left of it when it is
redacted. -/
theorem writeTo_congr (created : Instant) {r r' : Record} (h : r.redacted = r'.redacted)
    (b : Logbook) (sinks : List Sink) : writeTo created r b sinks = writeTo created r' b sinks := by
  induction sinks with
  | nil => rfl
  | cons sink rest ih =>
      cases sink with
      | silent => exact ih
      | console format => simp only [writeTo, passOn, h]
      | file format path => simp only [writeTo, passOn, h]

theorem add_congr (created : Instant) (b : Logbook) {r r' : Record} (h : r.SameButKeys r') :
    b.add created r = b.add created r' := by
  let named : Record := { r with logger := nameOf r.logger }
  let named' : Record := { r' with logger := nameOf r'.logger }
  have hredacted : named.redacted = named'.redacted :=
    Record.SameButKeys.redacted_eq ⟨congrArg nameOf h.logger, h.level, h.message, h.extra⟩
  have htakes : b.takes named = b.takes named' := by
    simp only [takes, named, named', h.level, h.logger]
  change (if b.takes named && debug ≤ r.level then writeTo created named b b.sinks else b) =
    if b.takes named' && debug ≤ r'.level then writeTo created named' b b.sinks else b
  rw [writeTo_congr created hredacted, htakes, h.level]

end Logbook

/-- **Account keys in messages stay out of the log**: records that differ
in account keys in their texts and templates are written alike, to the
same lines and to the same logbook. -/
theorem addAll_eq {records others : List Record}
    (h : List.Forall₂ Record.SameButKeys records others) (created : Instant) :
    (∀ format correlation,
      records.map (fun r => writtenLine format created correlation r.redacted) =
        others.map fun r => writtenLine format created correlation r.redacted) ∧
    ∀ b : Logbook, b.addAll created records = b.addAll created others := by
  induction h with
  | nil => exact ⟨fun _ _ => rfl, fun _ => rfl⟩
  | cons hr hrest ih =>
      refine ⟨fun format correlation => ?_, fun b => ?_⟩
      · rw [List.map_cons, List.map_cons, hr.redacted_eq, ih.1]
      · rw [Logbook.addAll, List.foldl_cons, b.add_congr created hr]
        exact ih.2 _

theorem addAll_eq_parsing :
    let parsing : String → Record := fun key =>
      ⟨LoggerName.query, debug, ⟨.str ("%s: AccountKey=" ++ key ++ "; parsed"), [.str "c"]⟩, []⟩
    List.Forall₂ Record.SameButKeys [parsing "one"] [parsing "two"] ∧
      ∀ b : Logbook, b.addAll (.whole 0) [parsing "one"] = b.addAll (.whole 0) [parsing "two"] := by
  intro parsing
  have hkey : IsKey "one".toList ∧ IsKey "two".toList := by
    unfold IsKey
    decide
  have hlead : IsKeyLead "AccountKey=".toList := rfl
  have hsame : SameButKeys "%s: AccountKey=one; parsed".toList
      "%s: AccountKey=two; parsed".toList :=
    .append_left "%s: ".toList (.key hlead hkey.1 hkey.2 (.refl " parsed".toList))
  have h : List.Forall₂ Record.SameButKeys [parsing "one"] [parsing "two"] :=
    .cons ⟨rfl, rfl, .template hsame _, rfl⟩ .nil
  exact ⟨h, (addAll_eq h (.whole 0)).2⟩

/-! ## What a line tells -/

section Texts

variable {created : Instant} {correlation : Option String} {r r' : Record}
  {message message' : String}

/-- A record whose further fields are texts has a line, which is read
back. -/
theorem writtenLine_of_texts (hclock : Clock.isoFault? created = none)
    (hextra : ∀ field ∈ r.extra, ∃ s, field.2 = .str s) (hmessage : r.message.render = .ok message) :
    writtenLine .json created correlation r = .ok (jsonLine created correlation message r) ∧
      Json.parse (jsonLine created correlation message r) =
        .ok (.obj (jsonFields created correlation message r)) := by
  have htext : ∀ {name value}, Table.get? r.extra name = some value → ∃ s, value = .str s :=
    fun h => hextra _ (Table.mem_of_get? h)
  refine ⟨writtenLine_json_eq_ok_iff.mpr ⟨hclock, message, hmessage, ?_, rfl⟩,
    parse_jsonLine (readable_jsonFields fun _ _ _ h => ?_)⟩
  · refine isShowable_jsonFields_iff.mpr fun _ _ _ h => ?_
    obtain ⟨_, rfl⟩ := htext h
    rfl
  · obtain ⟨_, rfl⟩ := htext h
    exact trivial

/-- Two such records have different lines if a field of the lines
differs. -/
theorem exists_lines_ne (hclock : Clock.isoFault? created = none)
    (hr : ∀ field ∈ r.extra, ∃ s, field.2 = .str s)
    (hr' : ∀ field ∈ r'.extra, ∃ s, field.2 = .str s) (hmessage : r.message.render = .ok message)
    (hmessage' : r'.message.render = .ok message') (name : String)
    (hne : (Table.get? (jsonFields created correlation message r) name).map Json.text ≠
      (Table.get? (jsonFields created correlation message' r') name).map Json.text) :
    ∃ one other, writtenLine .json created correlation r = .ok one ∧
      writtenLine .json created correlation r' = .ok other ∧ one ≠ other := by
  obtain ⟨hwritten, hparse⟩ := writtenLine_of_texts hclock hr hmessage
  obtain ⟨hwritten', hparse'⟩ := writtenLine_of_texts hclock hr' hmessage'
  refine ⟨_, _, hwritten, hwritten', fun heq => hne ?_⟩
  rw [heq, hparse'] at hparse
  rw [Json.obj.inj (Except.ok.inj hparse)]

end Texts

/-- A key in an argument is written, and so is one in the text of a query
that is parsed. -/
theorem jsonLine_tells_keys :
    let written : Record → Except LineFault String := fun r =>
      writtenLine .json (.whole 0) none r.redacted
    let query : String → String := fun key =>
      "SELECT * FROM c WHERE c.note = 'AccountKey=" ++ key ++ ";'"
    let parsed : String → Record := fun key =>
      templateRecord LoggerName.parser "Parsed query %r in %.3f ms"
        [.str (query key), .float (.zero false)]
    let parsing : String → Record := fun key => (Notice.parseStart (query key)).record (.zero false)
    (∃ one two, written (parsed "one") = .ok one ∧ written (parsed "two") = .ok two ∧ one ≠ two) ∧
      ∃ one two, written (parsing "one") = .ok one ∧ written (parsing "two") = .ok two ∧
        one ≠ two := by
  intro written query parsed parsing
  have hclock : Clock.isoFault? (.whole 0) = none := by decide +kernel
  have hparsing : ∀ key, ∀ field ∈ (parsing key).redacted.extra, ∃ s, field.2 = .str s := by
    intro key
    exact List.forall_mem_cons.mpr ⟨⟨_, rfl⟩, List.forall_mem_singleton.mpr ⟨_, rfl⟩⟩
  have hrender : ∀ key ∈ ["one", "two"], (parsed key).redacted.message.render =
      .ok ("Parsed query " ++ (query key).inQuotes ++ " in 0.000 ms") := by decide +kernel
  refine ⟨exists_lines_ne hclock (List.forall_mem_nil _) (List.forall_mem_nil _)
    (hrender "one" (by simp)) (hrender "two" (by simp)) "message" (by decide +kernel),
    exists_lines_ne hclock (hparsing "one") (hparsing "two") rfl rfl "query_text"
      (by decide +kernel)⟩

end DocStore.Log
