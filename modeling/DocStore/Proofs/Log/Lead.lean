import DocStore.Proofs.Log.Redaction

/-!
# Leads and values of secrets

The four kinds of secrets have leads of one shape: a word, and behind it
joints, which are blanks, quotes, colons and equals signs
(`Kind.IsLead`). Inside a lead no word starts, be it that of its own kind
or of another, and neither does one in the mark (`IsLead.foreign_tail`,
`foreign_mark`). That is a matter of the four words and the mark alone,
since no word starts with a joint.

A value is there if its first character is one that values of the kind
have, and ends where the next character is none (`exists_value`,
`exists_of_value`).
-/

namespace DocStore.Log

/-! ## Matching -/

theorem afterWord_eq_some_iff {w cs rest : List Char} :
    afterWord w cs = some rest ↔ ∃ l, cs = l ++ rest ∧ l.map plainLetter = w := by
  induction w generalizing cs with
  | nil => simp [afterWord]
  | cons x w ih =>
      cases cs with
      | nil => simp [afterWord]
      | cons c cs =>
          rw [afterWord]
          constructor
          · intro h
            split at h
            · rename_i hc
              obtain ⟨l, rfl, hl⟩ := ih.mp h
              exact ⟨c :: l, rfl, by rw [List.map_cons, hc, hl]⟩
            · cases h
          · rintro ⟨l, hcs, hl⟩
            cases l with
            | nil => cases hl
            | cons d l =>
                obtain ⟨rfl, rfl⟩ := List.cons.inj hcs
                obtain ⟨hd, hl⟩ := List.cons.inj hl
                rw [if_pos hd]
                exact ih.mpr ⟨l, rfl, hl⟩

section Classes

variable {p : Char → Bool} {l cs rest : List Char}

theorem dropWhile_of_head? (h : rest.head?.any p = false) : rest.dropWhile p = rest := by
  cases rest with
  | nil => rfl
  | cons c rest => exact List.dropWhile_cons_of_neg (by simpa using h)

theorem dropWhile_append_of_head? (hl : ∀ c ∈ l, p c = true) (h : rest.head?.any p = false) :
    (l ++ rest).dropWhile p = rest := by
  rw [List.dropWhile_append_of_pos hl, dropWhile_of_head? h]

theorem head?_append_any_eq_false (hl : ∀ c ∈ l, p c = false) (h : rest.head?.any p = false) :
    (l ++ rest).head?.any p = false := by
  cases l with
  | nil => exact h
  | cons c l => simpa using hl c List.mem_cons_self

theorem head?_any_eq_false {q : Char → Bool} (h : cs.head?.any p = true)
    (hpq : ∀ c, p c = true → q c = false) : cs.head?.any q = false := by
  cases cs with
  | nil => rfl
  | cons c cs => exact hpq c h

/-- The text is read by a step that goes over characters of a class, and
is so wherever no other of them follows. -/
structure Skipped (p : Char → Bool) (f : List Char → List Char) (l : List Char) : Prop where
  covers : ∀ c ∈ l, p c = true
  again : ∀ rest, rest.head?.any p = false → f (l ++ rest) = rest

theorem exists_dropWhile (p : Char → Bool) (cs : List Char) :
    ∃ l, cs = l ++ cs.dropWhile p ∧ Skipped p (List.dropWhile p) l ∧
      (cs.dropWhile p).head?.any p = false := by
  have hcovers : ∀ c ∈ cs.takeWhile p, p c = true := List.all_eq_true.mp List.all_takeWhile
  refine ⟨cs.takeWhile p, List.takeWhile_append_dropWhile.symm,
    ⟨hcovers, fun rest h => dropWhile_append_of_head? hcovers h⟩, ?_⟩
  have hhead := List.head?_dropWhile_not p cs
  cases h : (cs.dropWhile p).head? with
  | none => rfl
  | some c =>
      rw [h] at hhead
      simpa using hhead

theorem afterQuote_of_head? (h : cs.head?.any isQuote = false) : afterQuote cs = cs := by
  cases cs with
  | nil => rfl
  | cons c cs =>
      have hc : isQuote c = false := by simpa using h
      simp [afterQuote, afterOne, hc]

theorem exists_afterQuote (cs : List Char) :
    ∃ l, cs = l ++ afterQuote cs ∧ Skipped isQuote afterQuote l := by
  cases cs with
  | nil => exact ⟨[], rfl, List.forall_mem_nil _, fun _ => afterQuote_of_head?⟩
  | cons c cs =>
      cases hc : isQuote c with
      | true =>
          have hread : ∀ rest, afterQuote (c :: rest) = rest := fun rest => by
            simp [afterQuote, afterOne, hc]
          exact ⟨[c], by rw [hread, List.singleton_append], List.forall_mem_singleton.mpr hc,
            fun rest _ => hread rest⟩
      | false =>
          exact ⟨[], (afterQuote_of_head? (by simpa using hc)).symm, List.forall_mem_nil _,
            fun _ => afterQuote_of_head?⟩

theorem afterSome_append (hne : l ≠ []) (hl : ∀ c ∈ l, p c = true)
    (h : rest.head?.any p = false) : afterSome p (l ++ rest) = some rest := by
  obtain ⟨c, l, rfl⟩ := List.exists_cons_of_ne_nil hne
  rw [afterSome_eq, dropWhile_append_of_head? hl h, if_pos]
  simpa using hl c List.mem_cons_self

theorem exists_of_afterSome (h : afterSome p cs = some rest) :
    ∃ l, cs = l ++ rest ∧ l ≠ [] ∧ (∀ c ∈ l, p c = true) ∧ rest.head?.any p = false := by
  rw [afterSome_eq] at h
  split at h
  · rename_i hhead
    obtain ⟨l, hcs, hl, hrest⟩ := exists_dropWhile p cs
    obtain rfl := Option.some.inj h
    refine ⟨l, hcs, ?_, hl.covers, hrest⟩
    rintro rfl
    rw [← List.nil_append (cs.dropWhile p), ← hcs, hhead] at hrest
    cases hrest
  · cases h

theorem exists_of_afterOne (h : afterOne p cs = some rest) : ∃ c, cs = c :: rest ∧ p c = true := by
  cases cs with
  | nil => cases h
  | cons c cs =>
      rw [afterOne] at h
      split at h
      · rename_i hc
        obtain rfl := Option.some.inj h
        exact ⟨c, rfl, hc⟩
      · cases h

end Classes

/-! ## Joints -/

/-- What can stand between the word of a lead and the value. -/
def isJoint (c : Char) : Bool :=
  isQuote c || c = ':' || c = '=' || Text.isBlank c

theorem isJoint_of_isBlank {c : Char} (h : Text.isBlank c = true) : isJoint c = true := by
  rw [isJoint, h, Bool.or_true]

theorem isJoint_of_isQuote {c : Char} (h : isQuote c = true) : isJoint c = true := by
  rw [isJoint, h, Bool.true_or, Bool.true_or, Bool.true_or]

theorem isBlank_of_isQuote {c : Char} (h : isQuote c = true) : Text.isBlank c = false := by
  rw [isQuote, Bool.or_eq_true, decide_eq_true_eq, decide_eq_true_eq] at h
  rcases h with rfl | rfl <;> decide

theorem isQuote_of_isBlank {c : Char} (h : Text.isBlank c = true) : isQuote c = false := by
  cases hc : isQuote c with
  | false => rfl
  | true => exact h.symm.trans (isBlank_of_isQuote hc)

theorem plainLetter_of_isBlank {c : Char} (h : Text.isBlank c = true) : plainLetter c = c := by
  have hrange : c.toNat ≤ 0x20 ∨ 0x85 ≤ c.toNat := by
    simp [Text.isBlank, Text.inRanges, Text.blankRanges] at h
    omega
  have hsmall : ¬ (c.val ≥ 'A'.val ∧ c.val ≤ 'Z'.val) := by
    rintro ⟨hlow, hhigh⟩
    have hlow : 65 ≤ c.toNat := hlow
    have hhigh : c.toNat ≤ 90 := hhigh
    omega
  have hkelvin : c.toNat ≠ 0x212A := by
    rw [Text.isBlank] at h
    rintro hc
    rw [hc] at h
    exact absurd h (by decide)
  unfold plainLetter
  rw [if_neg hkelvin]
  split
  · subst c
    exact absurd h (by decide)
  · split
    · rename_i hc
      rw [Bool.or_eq_true, decide_eq_true_eq, decide_eq_true_eq] at hc
      rcases hc with rfl | rfl <;> exact absurd h (by decide)
    · exact dif_neg hsmall

theorem plainLetter_of_isJoint {c : Char} (h : isJoint c = true) : plainLetter c = c := by
  simp only [isJoint, isQuote, Bool.or_eq_true, decide_eq_true_eq] at h
  rcases h with (((rfl | rfl) | rfl) | rfl) | h
  · decide
  · decide
  · decide
  · decide
  · exact plainLetter_of_isBlank h

/-! ## Kinds -/

/-- The kinds of secrets. -/
inductive Kind where
  | accountKey
  | masterKey
  | signature
  | authorization
deriving DecidableEq

namespace Kind

def secret : Kind → Secret
  | accountKey => .accountKey
  | masterKey => .masterKey
  | signature => .signature
  | authorization => .authorization

/-- In the order in which they are hidden. -/
def all : List Kind :=
  [accountKey, masterKey, signature, authorization]

/-- What a lead starts with, in small letters. -/
def word : Kind → List Char
  | accountKey => "accountkey=".toList
  | masterKey => "masterkey".toList
  | signature => "type%3dmaster%26ver%3d1.0%26sig%3d".toList
  | authorization => "authorization:".toList

/-- The characters that values have. -/
def covers : Kind → Char → Bool
  | accountKey, c => c != ';'
  | masterKey, c => !isQuote c && c != ';' && !Text.isBlank c
  | signature, c => c != '&' && !Text.isBlank c
  | authorization, c => !Text.isBlank c

/-- The text is a lead of the kind: it has the shape of one, and is read
as one in front of every value. -/
structure IsLead (k : Kind) (l : List Char) : Prop where
  shape : ∃ start tail, l = start ++ tail ∧ start.map plainLetter = k.word ∧
    ∀ c ∈ tail, isJoint c = true
  reads : ∀ rest, rest.head?.any k.covers = true → k.secret.lead (l ++ rest) = some rest

theorem isLead_of_word {k : Kind} {start : List Char}
    (hlead : k.secret.lead = afterWord k.word) (h : start.map plainLetter = k.word) :
    k.IsLead start where
  shape := ⟨start, [], (List.append_nil _).symm, h, List.forall_mem_nil _⟩
  reads rest _ := by
    rw [hlead]
    exact afterWord_eq_some_iff.mpr ⟨start, rfl, h⟩

theorem masterKey_lead_eq (cs : List Char) :
    masterKey.secret.lead cs = (afterWord masterKey.word cs).bind fun behind =>
      (afterOne (fun c => c = ':' || c = '=') ((afterQuote behind).dropWhile Text.isBlank)).bind
        fun behind => some (afterQuote (behind.dropWhile Text.isBlank)) := rfl

theorem authorization_lead_eq (cs : List Char) :
    authorization.secret.lead cs =
      (afterWord authorization.word cs).bind (afterSome Text.isBlank) := rfl

/-- A lead of a master key: the word, quotes, blanks, a colon or an equals
sign, blanks and quotes. -/
theorem isLead_masterKey {start quotes blanks blanks' quotes' : List Char} {c : Char}
    (hstart : start.map plainLetter = masterKey.word)
    (hquotes : Skipped isQuote afterQuote quotes)
    (hblanks : Skipped Text.isBlank (List.dropWhile Text.isBlank) blanks)
    (hc : (c = ':' || c = '=') = true)
    (hblanks' : Skipped Text.isBlank (List.dropWhile Text.isBlank) blanks')
    (hquotes' : Skipped isQuote afterQuote quotes') :
    masterKey.IsLead (start ++ (quotes ++ (blanks ++ c :: (blanks' ++ quotes')))) := by
  have hjoint : isJoint c = true ∧ isQuote c = false ∧ Text.isBlank c = false := by
    rw [Bool.or_eq_true, decide_eq_true_eq, decide_eq_true_eq] at hc
    rcases hc with rfl | rfl <;> decide
  constructor
  · refine ⟨start, _, rfl, hstart, ?_⟩
    simp only [List.forall_mem_append, List.forall_mem_cons]
    exact ⟨fun d hd => isJoint_of_isQuote (hquotes.covers d hd),
      fun d hd => isJoint_of_isBlank (hblanks.covers d hd), hjoint.1,
      fun d hd => isJoint_of_isBlank (hblanks'.covers d hd),
      fun d hd => isJoint_of_isQuote (hquotes'.covers d hd)⟩
  · intro rest hrest
    have hquote : rest.head?.any isQuote = false :=
      head?_any_eq_false hrest fun d hd => by
        simp only [covers, Bool.and_eq_true, Bool.not_eq_true'] at hd
        exact hd.1.1
    have hblank : rest.head?.any Text.isBlank = false :=
      head?_any_eq_false hrest fun d hd => by
        simp only [covers, Bool.and_eq_true, Bool.not_eq_true'] at hd
        exact hd.2
    -- Each part ends where the next one starts, the last one at the value.
    have hread' : afterQuote ((blanks' ++ (quotes' ++ rest)).dropWhile Text.isBlank) = rest := by
      rw [hblanks'.again, hquotes'.again rest hquote]
      exact head?_append_any_eq_false (fun d hd => isBlank_of_isQuote (hquotes'.covers d hd)) hblank
    have hread : ∀ behind, (afterQuote (quotes ++ (blanks ++ c :: behind))).dropWhile Text.isBlank =
        c :: behind := by
      intro behind
      have hblank : (c :: behind).head?.any Text.isBlank = false := hjoint.2.2
      have hquote : (c :: behind).head?.any isQuote = false := hjoint.2.1
      rw [hquotes.again, hblanks.again _ hblank]
      exact head?_append_any_eq_false (fun d hd => isQuote_of_isBlank (hblanks.covers d hd)) hquote
    have hword : ∀ behind, afterWord masterKey.word (start ++ behind) = some behind :=
      fun behind => afterWord_eq_some_iff.mpr ⟨start, rfl, hstart⟩
    simp only [List.append_assoc, List.cons_append, masterKey_lead_eq, hword, Option.bind_some,
      hread, afterOne, hc, if_true, hread']

/-- What a kind reads as its lead is one. -/
theorem exists_isLead {k : Kind} {cs rest : List Char} (h : k.secret.lead cs = some rest) :
    ∃ l, cs = l ++ rest ∧ k.IsLead l := by
  cases k with
  | accountKey | signature =>
      obtain ⟨l, hcs, hl⟩ := afterWord_eq_some_iff.mp h
      exact ⟨l, hcs, isLead_of_word rfl hl⟩
  | authorization =>
      rw [authorization_lead_eq, Option.bind_eq_some_iff] at h
      obtain ⟨behind, hword, hblanks⟩ := h
      obtain ⟨start, rfl, hstart⟩ := afterWord_eq_some_iff.mp hword
      obtain ⟨blanks, rfl, hne, hblanks, -⟩ := exists_of_afterSome hblanks
      refine ⟨start ++ blanks, (List.append_assoc ..).symm,
        ⟨start, blanks, rfl, hstart, fun c hc => isJoint_of_isBlank (hblanks c hc)⟩, ?_⟩
      intro rest' hrest'
      have hblank : rest'.head?.any Text.isBlank = false :=
        head?_any_eq_false hrest' fun c hc => by simpa [covers] using hc
      rw [List.append_assoc, authorization_lead_eq,
        afterWord_eq_some_iff.mpr ⟨start, rfl, hstart⟩, Option.bind_some,
        afterSome_append hne hblanks hblank]
  | masterKey =>
      rw [masterKey_lead_eq, Option.bind_eq_some_iff] at h
      obtain ⟨front, hword, h⟩ := h
      obtain ⟨back, hjoint, h⟩ := Option.bind_eq_some_iff.mp h
      obtain ⟨start, rfl, hstart⟩ := afterWord_eq_some_iff.mp hword
      obtain ⟨c, hsplit, hc⟩ := exists_of_afterOne hjoint
      obtain ⟨quotes, hfront, hquotes⟩ := exists_afterQuote front
      obtain ⟨blanks, hfront', hblanks, -⟩ := exists_dropWhile Text.isBlank (afterQuote front)
      obtain ⟨blanks', hback, hblanks', -⟩ := exists_dropWhile Text.isBlank back
      obtain ⟨quotes', hback', hquotes'⟩ := exists_afterQuote (back.dropWhile Text.isBlank)
      obtain rfl := Option.some.inj h
      refine ⟨_, ?_, isLead_masterKey hstart hquotes hblanks hc hblanks' hquotes'⟩
      rw [hsplit] at hfront'
      simp only [List.append_assoc, List.cons_append, ← hback', ← hback, ← hfront', ← hfront]

theorem word_ne_nil (k : Kind) : k.word ≠ [] := by
  cases k <;> decide

theorem IsLead.ne_nil {k : Kind} {l : List Char} (h : k.IsLead l) : l ≠ [] := by
  obtain ⟨start, tail, rfl, hstart, -⟩ := h.shape
  rintro hnil
  obtain ⟨rfl, -⟩ := List.append_eq_nil_iff.mp hnil
  exact k.word_ne_nil hstart.symm

theorem IsLead.word_prefix {k : Kind} {l : List Char} (h : k.IsLead l) (rest : List Char) :
    k.word <+: (l ++ rest).map plainLetter := by
  obtain ⟨start, tail, rfl, hstart, -⟩ := h.shape
  rw [List.map_append, List.map_append, hstart, List.append_assoc]
  exact List.prefix_append ..

end Kind

/-! ## Where words start -/

/-- The word starts nowhere in the text, not even one that goes on
behind it. -/
def Foreign (w : List Char) : List Char → Prop
  | [] => True
  | c :: cs => (¬ w <+: c :: cs ∧ ¬ c :: cs <+: w) ∧ Foreign w cs

namespace Foreign

variable {w cs ds : List Char}

instance decidable (w : List Char) : (cs : List Char) → Decidable (Foreign w cs)
  | [] => .isTrue True.intro
  | c :: cs =>
    have := decidable w cs
    inferInstanceAs (Decidable ((¬ w <+: c :: cs ∧ ¬ c :: cs <+: w) ∧ Foreign w cs))

theorem not_prefix (h : Foreign w cs) (hne : cs ≠ []) (behind : List Char) :
    ¬ w <+: cs ++ behind := by
  intro hw
  obtain ⟨c, cs, rfl⟩ := List.exists_cons_of_ne_nil hne
  exact (List.prefix_or_prefix_of_prefix hw (List.prefix_append ..)).elim h.1.1 h.1.2

theorem of_append (h : Foreign w (cs ++ ds)) : Foreign w ds := by
  induction cs with
  | nil => exact h
  | cons c cs ih => exact ih h.2

theorem append (hcs : Foreign w cs) (hds : Foreign w ds) : Foreign w (cs ++ ds) := by
  induction cs with
  | nil => exact hds
  | cons c cs ih =>
      refine ⟨⟨hcs.not_prefix (List.cons_ne_nil c cs) ds, fun h => ?_⟩, ih hcs.2⟩
      exact hcs.1.2 ((List.prefix_append (c :: cs) ds).trans h)

/-- A word starts nowhere among characters that are not its first. -/
theorem of_head {c : Char} (h : ∀ d ∈ cs, d ≠ c) : Foreign (c :: w) cs := by
  induction cs with
  | nil => exact True.intro
  | cons d cs ih =>
      obtain ⟨hd, hcs⟩ := List.forall_mem_cons.mp h
      refine ⟨⟨fun hprefix => ?_, fun hprefix => ?_⟩, ih hcs⟩
      · exact hd (List.cons_prefix_cons.mp hprefix).1.symm
      · exact hd (List.cons_prefix_cons.mp hprefix).1

end Foreign

namespace Kind

theorem foreign_mark (k : Kind) : Foreign k.word (Secret.mark.map plainLetter) := by
  cases k <;> decide

theorem foreign_tail (k other : Kind) : Foreign k.word other.word.tail := by
  cases k <;> cases other <;> decide

theorem foreign_word {k other : Kind} (h : k ≠ other) : Foreign k.word other.word := by
  cases k <;> cases other <;> first | decide | exact absurd rfl h

/-- No word starts with a joint. -/
theorem foreign_joints (k : Kind) {cs : List Char} (h : ∀ c ∈ cs, isJoint c = true) :
    Foreign k.word (cs.map plainLetter) := by
  have hcs : cs.map plainLetter = cs := by
    conv_rhs => rw [← List.map_id cs]
    exact List.map_congr_left fun c hc => plainLetter_of_isJoint (h c hc)
  rw [hcs]
  have hhead : ∀ d, isJoint d = false → ∀ c ∈ cs, c ≠ d := by
    rintro d hd c hc rfl
    rw [h c hc] at hd
    cases hd
  cases k <;> exact .of_head (hhead _ (by decide))

/-- Behind its first character no word starts in a lead. -/
theorem IsLead.foreign_tail {k : Kind} (other : Kind) {c : Char} {l : List Char}
    (h : k.IsLead (c :: l)) : Foreign other.word (l.map plainLetter) := by
  obtain ⟨start, tail, hl, hstart, htail⟩ := h.shape
  cases start with
  | nil => exact absurd hstart.symm k.word_ne_nil
  | cons d start =>
      rw [List.cons_append] at hl
      obtain ⟨-, rfl⟩ := List.cons.inj hl
      rw [List.map_append]
      have hword := other.foreign_tail k
      rw [← hstart] at hword
      exact hword.append (other.foreign_joints htail)

/-- The word of another kind does not start in a lead. -/
theorem IsLead.foreign {k other : Kind} (hne : other ≠ k) {l : List Char} (h : k.IsLead l) :
    Foreign other.word (l.map plainLetter) := by
  obtain ⟨start, tail, rfl, hstart, htail⟩ := h.shape
  rw [List.map_append, hstart]
  exact (foreign_word hne).append (other.foreign_joints htail)

end Kind

/-! ## Values -/

namespace Kind

theorem covers_mark (k : Kind) : ∀ c ∈ Secret.mark, k.covers c = true := by
  have hall : Secret.mark.all k.covers = true := by cases k <;> rfl
  exact List.all_eq_true.mp hall

/-- A value starts with a character of its kind, and no other follows
it. -/
theorem exists_of_value {k : Kind} {cs rest : List Char} (h : k.secret.value cs = some rest) :
    ∃ value, cs = value ++ rest ∧ cs.head?.any k.covers = true ∧
      rest.head?.any k.covers = false := by
  have hsome : ∀ {p : Char → Bool} {cs rest : List Char}, afterSome p cs = some rest →
      ∃ value, cs = value ++ rest ∧ cs.head?.any p = true ∧ rest.head?.any p = false := by
    intro p cs rest h
    obtain ⟨value, rfl, hne, hvalue, hrest⟩ := exists_of_afterSome h
    obtain ⟨c, value, rfl⟩ := List.exists_cons_of_ne_nil hne
    exact ⟨c :: value, rfl, hvalue c List.mem_cons_self, hrest⟩
  cases k with
  | accountKey | masterKey | signature => exact hsome h
  | authorization =>
      simp only [secret, Secret.authorization] at h
      split at h
      · rename_i htoken
        obtain rfl := Option.some.inj h
        obtain ⟨behind, hbehind, hafter⟩ := Option.bind_eq_some_iff.mp htoken
        obtain ⟨_, hword, hblanks⟩ := Option.bind_eq_some_iff.mp hbehind
        obtain ⟨start, rfl, hstart⟩ := afterWord_eq_some_iff.mp hword
        obtain ⟨blanks, rfl, -, -, -⟩ := exists_of_afterSome hblanks
        obtain ⟨token, rfl, -, hrest⟩ := hsome hafter
        refine ⟨start ++ (blanks ++ token), by simp only [List.append_assoc], ?_, hrest⟩
        cases start with
        | nil => cases hstart
        | cons c start =>
            obtain ⟨hc, -⟩ := List.cons.inj hstart
            show (!Text.isBlank c) = true
            rw [Bool.not_eq_true', Bool.eq_false_iff]
            intro hblank
            rw [plainLetter_of_isBlank hblank] at hc
            rw [hc] at hblank
            exact absurd hblank (by decide)
      · exact hsome h

theorem exists_value {k : Kind} {cs : List Char} (h : cs.head?.any k.covers = true) :
    ∃ rest, k.secret.value cs = some rest := by
  have hsome : afterSome k.covers cs = some (cs.dropWhile k.covers) := by
    rw [afterSome_eq, if_pos h]
  cases k with
  | accountKey | masterKey | signature => exact ⟨_, hsome⟩
  | authorization =>
      simp only [secret, Secret.authorization]
      split
      · exact ⟨_, rfl⟩
      · exact ⟨_, hsome⟩

theorem value_mark {k : Kind} {rest : List Char} (h : rest.head?.any k.covers = false) :
    k.secret.value (Secret.mark ++ rest) = some rest := by
  have hsome : afterSome k.covers (Secret.mark ++ rest) = some rest :=
    afterSome_append (by decide) k.covers_mark h
  cases k with
  | accountKey | masterKey | signature => exact hsome
  | authorization =>
      have hbearer : afterWord "bearer".toList (Secret.mark ++ rest) = none := rfl
      simp only [secret, Secret.authorization, hbearer]
      exact hsome

end Kind

end DocStore.Log
