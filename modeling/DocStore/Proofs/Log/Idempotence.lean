import DocStore.Proofs.Log.Lead

/-!
# Redacting twice

What is redacted is not changed by redacting it again
(`redact_redact`), so every sink of a logbook writes the same record,
though each of them redacts what the one before has passed on
(`redacted_for_all_sinks`).

A text is settled for a kind of secrets if wherever one of them stands,
it is the mark (`Settled`). Hiding a kind changes nothing in a text that
is settled for it (`Hides.eq_of_settled`), settles the text for it, and
leaves it settled for the others (`Hides.settled`). The last two have
one reason: what is put in or left standing has no part of a lead at its
borders, so a lead in the new text is one in the old, in the same place.
-/

namespace DocStore.Log

open Secret (mark)

/-! ## Hiding -/

/-- What becomes of a text when the secrets of a kind are hidden. -/
inductive Hides (k : Kind) : List Char → List Char → Prop where
  | nil : Hides k [] []
  | kept {c : Char} {cs ds : List Char} (h : k.secret.split? (c :: cs) = none)
      (hrest : Hides k cs ds) : Hides k (c :: cs) (c :: ds)
  | hidden {lead value rest ds : List Char} (hlead : k.IsLead lead)
      (hvalue : k.secret.value (value ++ rest) = some rest) (hrest : Hides k rest ds) :
      Hides k (lead ++ (value ++ rest)) (lead ++ (mark ++ ds))

namespace Kind

variable {k : Kind} {cs lead behind rest : List Char}

theorem split?_of_isLead (hlead : k.IsLead lead) (hvalue : k.secret.value behind = some rest) :
    k.secret.split? (lead ++ behind) = some (lead, rest) := by
  obtain ⟨-, -, hcovers, -⟩ := exists_of_value hvalue
  exact Secret.split?_append (hlead.reads behind hcovers) hvalue

theorem exists_of_split? (h : k.secret.split? cs = some (lead, rest)) :
    ∃ value, cs = lead ++ (value ++ rest) ∧ k.IsLead lead ∧
      k.secret.value (value ++ rest) = some rest := by
  obtain ⟨behind, hlead, hsplit⟩ := Option.bind_eq_some_iff.mp h
  obtain ⟨rest', hvalue, -⟩ := Option.bind_eq_some_iff.mp hsplit
  obtain ⟨lead', rfl, hisLead⟩ := exists_isLead hlead
  rw [split?_of_isLead hisLead hvalue] at h
  obtain ⟨rfl, rfl⟩ := Prod.mk.inj (Option.some.inj h)
  obtain ⟨value, rfl, -, -⟩ := exists_of_value hvalue
  exact ⟨value, rfl, hisLead, hvalue⟩

end Kind

/-- By induction on the length, since a secret is left out at once. -/
theorem hides_hide (k : Kind) (cs : List Char) : Hides k cs (k.secret.hide cs) := by
  induction hn : cs.length using Nat.strongRecOn generalizing cs with
  | _ n ih =>
      cases cs with
      | nil => exact .nil
      | cons c cs =>
          cases hsplit : k.secret.split? (c :: cs) with
          | none =>
              rw [Secret.hide_cons_of_none hsplit]
              exact .kept hsplit (ih cs.length (by simp [← hn]) cs rfl)
          | some found =>
              obtain ⟨lead, rest⟩ := found
              obtain ⟨value, hcs, hlead, hvalue⟩ := Kind.exists_of_split? hsplit
              obtain ⟨c', lead, rfl⟩ := List.exists_cons_of_ne_nil hlead.ne_nil
              obtain ⟨rfl, rfl⟩ := List.cons.inj hcs
              have hrest : rest <:+ lead ++ (value ++ rest) :=
                (List.suffix_append value rest).trans (List.suffix_append lead _)
              have hlt : rest.length < n := by
                rw [← hn]
                exact Nat.lt_succ_of_le hrest.length_le
              rw [Secret.hide_cons_of_some hsplit hrest, List.append_assoc]
              exact .hidden hlead hvalue (ih rest.length hlt rest rfl)

namespace Hides

variable {k : Kind} {cs ds l : List Char}

theorem head?_eq (h : Hides k cs ds) : cs.head? = ds.head? := by
  cases h with
  | nil => rfl
  | kept => rfl
  | hidden hlead =>
      obtain ⟨c, lead, rfl⟩ := List.exists_cons_of_ne_nil hlead.ne_nil
      rfl

end Hides

/-- Where a lead starts there is none of what a word is foreign to. -/
theorem Kind.IsLead.eq_nil {k : Kind} {lead behind l cs : List Char} (hlead : k.IsLead lead)
    (h : lead ++ behind = l ++ cs) (hl : Foreign k.word (l.map plainLetter)) : l = [] := by
  by_contra hne
  have hprefix := hlead.word_prefix behind
  rw [h, List.map_append] at hprefix
  exact hl.not_prefix (by simpa using hne) _ hprefix

namespace Hides

variable {k : Kind} {cs ds l : List Char}

/-- What no lead starts in is kept. -/
theorem of_foreign (h : Hides k (l ++ cs) ds) (hl : Foreign k.word (l.map plainLetter)) :
    ∃ rest, ds = l ++ rest ∧ Hides k cs rest := by
  induction l generalizing ds with
  | nil => exact ⟨ds, rfl, h⟩
  | cons c l ih =>
      generalize htext : c :: l ++ cs = text at h
      cases h with
      | nil => cases htext
      | kept hsplit hrest =>
          obtain ⟨rfl, rfl⟩ := List.cons.inj htext
          obtain ⟨rest, rfl, h⟩ := ih hrest hl.2
          exact ⟨rest, rfl, h⟩
      | hidden hlead hvalue hrest => cases hlead.eq_nil htext.symm hl

/-- What no lead starts in has been kept. -/
theorem of_foreign_right (h : Hides k cs (l ++ ds)) (hl : Foreign k.word (l.map plainLetter)) :
    ∃ rest, cs = l ++ rest ∧ Hides k rest ds := by
  induction l generalizing cs with
  | nil => exact ⟨cs, rfl, h⟩
  | cons c l ih =>
      generalize htext : c :: l ++ ds = text at h
      cases h with
      | nil => cases htext
      | kept hsplit hrest =>
          obtain ⟨rfl, rfl⟩ := List.cons.inj htext
          obtain ⟨rest, rfl, h⟩ := ih hrest hl.2
          exact ⟨rest, rfl, h⟩
      | hidden hlead hvalue hrest => cases hlead.eq_nil htext.symm hl

end Hides

/-! ## Settled texts -/

/-- Wherever a secret of the kind stands, it is the mark. -/
def Settled (k : Kind) (cs : List Char) : Prop :=
  ∀ before lead behind rest, cs = before ++ (lead ++ behind) → k.IsLead lead →
    k.secret.value behind = some rest → behind = mark ++ rest

theorem Settled.of_append {k : Kind} {cs ds : List Char} (h : Settled k (cs ++ ds)) :
    Settled k ds := by
  rintro before lead behind rest rfl
  exact h (cs ++ before) lead behind rest (List.append_assoc ..).symm

theorem Settled.of_cons {k : Kind} {c : Char} {cs : List Char} (h : Settled k (c :: cs)) :
    Settled k cs := by
  rintro before lead behind rest rfl
  exact h (c :: before) lead behind rest rfl

theorem Hides.eq_of_settled {k : Kind} {cs ds : List Char} (h : Hides k cs ds)
    (hcs : Settled k cs) : ds = cs := by
  induction h with
  | nil => rfl
  | @kept c cs ds hsplit hrest ih => rw [ih hcs.of_cons]
  | @hidden lead value rest ds hlead hvalue hrest ih =>
      have hmark : value = mark :=
        List.append_cancel_right (hcs [] lead (value ++ rest) rest rfl hlead hvalue)
      rw [ih hcs.of_append.of_append, hmark]

/-- The mark is read as a value whatever it stands in front of, as long
as values end there. -/
theorem Kind.eq_mark_of_value {k : Kind} {cs rest : List Char}
    (h : k.secret.value (mark ++ cs) = some rest) (hcs : cs.head?.any k.covers = false) :
    mark ++ cs = mark ++ rest := by
  rw [value_mark hcs] at h
  rw [Option.some.inj h]

section Kinds

variable {k other : Kind} {cs ds : List Char}

/-- A character that is kept. A lead that starts with it is one in the
old text, where it has a value too. -/
theorem Settled.kept {c : Char} (hsplit : other.secret.split? (c :: cs) = none)
    (hrest : Hides other cs ds) (hcs : k = other ∨ Settled k (c :: cs)) (hds : Settled k ds) :
    Settled k (c :: ds) := by
  intro before lead behind rest htext hlead hvalue
  cases before with
  | cons b before =>
      obtain ⟨-, rfl⟩ := List.cons.inj htext
      exact hds before lead behind rest rfl hlead hvalue
  | nil =>
      obtain ⟨b, lead, rfl⟩ := List.exists_cons_of_ne_nil hlead.ne_nil
      obtain ⟨rfl, rfl⟩ := List.cons.inj htext
      obtain ⟨old, rfl, hold⟩ := hrest.of_foreign_right (hlead.foreign_tail other)
      obtain ⟨-, -, hcovers, -⟩ := Kind.exists_of_value hvalue
      obtain ⟨oldRest, holdValue⟩ := Kind.exists_value (hold.head?_eq ▸ hcovers)
      rcases hcs with rfl | hcs
      · have hsome := Kind.split?_of_isLead hlead holdValue
        rw [List.cons_append, hsplit] at hsome
        cases hsome
      · obtain rfl := hcs [] (c :: lead) old oldRest rfl hlead holdValue
        obtain ⟨new, rfl, hnew⟩ := hold.of_foreign other.foreign_mark
        obtain ⟨-, -, -, hends⟩ := Kind.exists_of_value holdValue
        exact Kind.eq_mark_of_value hvalue (hnew.head?_eq ▸ hends)

/-- A secret that is hidden. No lead starts in the mark, and none in the
lead in front of it but the lead itself. -/
theorem Settled.hidden {oldLead : List Char} (holdLead : other.IsLead oldLead)
    (hends : ds.head?.any other.covers = false) (hds : Settled k ds) :
    Settled k (oldLead ++ (mark ++ ds)) := by
  intro before lead behind rest htext hlead hvalue
  rcases List.append_eq_append_iff.mp htext with ⟨l, rfl, hbehind⟩ | ⟨l, rfl, hbehind⟩
  · rcases List.append_eq_append_iff.mp hbehind with ⟨l', rfl, htail⟩ | ⟨l', hmark, htail⟩
    · exact hds l' lead behind rest htail hlead hvalue
    · have hforeign := k.foreign_mark
      rw [hmark, List.map_append] at hforeign
      obtain rfl := hlead.eq_nil htail hforeign.of_append
      exact hds [] lead behind rest htail.symm hlead hvalue
  · cases before with
    | cons b before =>
        rw [List.cons_append] at holdLead
        have hforeign := holdLead.foreign_tail k
        rw [List.map_append] at hforeign
        obtain rfl := hlead.eq_nil hbehind hforeign.of_append
        have hmark : lead ++ behind = mark ++ ds := hbehind
        cases hlead.eq_nil hmark k.foreign_mark
    | nil =>
        rw [List.nil_append] at holdLead
        by_cases hk : k = other
        · subst hk
          -- Both leads are read, and leave the same.
          obtain ⟨-, -, hcovers, -⟩ := Kind.exists_of_value hvalue
          have hread := hlead.reads behind hcovers
          rw [hbehind, holdLead.reads (mark ++ ds) (k.covers_mark _ List.mem_cons_self)] at hread
          obtain rfl := Option.some.inj hread
          exact Kind.eq_mark_of_value hvalue hends
        · exact absurd (hlead.eq_nil hbehind (holdLead.foreign hk)) holdLead.ne_nil

/-- Hiding one kind settles the text for it, and leaves it settled for
the others. -/
theorem Hides.settled (h : Hides other cs ds) (hcs : k = other ∨ Settled k cs) :
    Settled k ds := by
  induction h with
  | nil =>
      intro before lead behind rest htext hlead
      obtain ⟨-, hnil⟩ := List.append_eq_nil_iff.mp htext.symm
      exact absurd (List.append_eq_nil_iff.mp hnil).1 hlead.ne_nil
  | @kept c cs ds hsplit hrest ih =>
      exact .kept hsplit hrest hcs (ih (hcs.imp_right Settled.of_cons))
  | @hidden lead value rest ds hlead hvalue hrest ih =>
      obtain ⟨-, -, -, hends⟩ := Kind.exists_of_value hvalue
      have hbehind := hcs.imp_right fun h => h.of_append.of_append
      exact .hidden hlead (hrest.head?_eq ▸ hends) (ih hbehind)

end Kinds

theorem Kind.mem_all (k : Kind) : k ∈ all := by
  cases k <;> decide

/-- Once they are hidden, all kinds are settled, whichever is hidden
first. -/
theorem settled_foldl {k : Kind} {ks : List Kind} {cs : List Char} (h : k ∈ ks ∨ Settled k cs) :
    Settled k (ks.foldl (fun cs k => k.secret.hide cs) cs) := by
  induction ks generalizing cs with
  | nil => exact h.resolve_left List.not_mem_nil
  | cons other ks ih =>
      refine ih ?_
      rcases h with h | h
      · exact (List.mem_cons.mp h).symm.imp_right fun h => (hides_hide other cs).settled (.inl h)
      · exact .inr ((hides_hide other cs).settled (.inr h))

theorem foldl_hide_of_settled {ks : List Kind} {cs : List Char} (h : ∀ k, Settled k cs) :
    ks.foldl (fun cs k => k.secret.hide cs) cs = cs := by
  induction ks with
  | nil => rfl
  | cons k ks ih => rw [List.foldl_cons, (hides_hide k cs).eq_of_settled (h k), ih]

theorem redact_eq_foldl (s : String) :
    redact s = String.ofList (Kind.all.foldl (fun cs k => k.secret.hide cs) s.toList) := rfl

theorem redact_redact (s : String) : redact (redact s) = redact s := by
  rw [redact_eq_foldl, redact_eq_foldl s, String.toList_ofList,
    foldl_hide_of_settled fun k => settled_foldl (.inl k.mem_all)]

/-- A kind that is hidden later may take away a mark. -/
example : redact "Authorization: Bearer AccountKey=a;b" = "Authorization: ***REDACTED***" := by
  decide +kernel

/-! ## Sinks -/

theorem Message.redacted_redacted (m : Message) : m.redacted.redacted = m.redacted := by
  obtain ⟨content, arguments⟩ := m
  cases content with
  | str s => exact congrArg (fun s => (⟨.str s, arguments⟩ : Message)) (redact_redact s)
  | null | bool | int | float | arr | obj => rfl

theorem Record.redacted_redacted (r : Record) : r.redacted.redacted = r.redacted := by
  simp only [Record.redacted, Message.redacted_redacted]

namespace Logbook

/-- Whether a sink has redacted the record or not is not seen by the
next one. -/
theorem passOn_redacted (sink : Sink) (r : Record) : (passOn sink r).redacted = r.redacted := by
  cases sink with
  | silent => rfl
  | console | file => exact r.redacted_redacted

/-- What a sink writes is redacted. -/
theorem writeOne_passOn (created : Instant) (r : Record) (b : Logbook) (sink : Sink) :
    writeOne created (passOn sink r) b sink = writeOne created r.redacted b sink := by
  cases sink <;> rfl

end Logbook

/-- **Redaction is idempotent.** A record that has been redacted is not
changed by redacting it again, and so all sinks write one record, though
each sink redacts what it is passed by the one before. -/
theorem redacted_for_all_sinks (r : Record) :
    r.redacted.redacted = r.redacted ∧
      ∀ (created : Instant) (b : Logbook) (sinks : List Sink),
        Logbook.writeTo created r b sinks =
          sinks.foldl (Logbook.writeOne created r.redacted) b := by
  refine ⟨r.redacted_redacted, fun created b sinks => ?_⟩
  induction sinks generalizing r b with
  | nil => rfl
  | cons sink rest ih =>
      rw [List.foldl_cons, ← Logbook.writeOne_passOn, ← Logbook.passOn_redacted sink r]
      exact ih _ _

end DocStore.Log
