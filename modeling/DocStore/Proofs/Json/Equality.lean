import DocStore.Proofs.Json.Overflow
import DocStore.Proofs.Json.Reordered

/-!
# Equality of values

Inside arrays and objects two values are equal if they are the same but
for the order of keys and the writing of numbers (`Json.Same`): this is
what the comparison of values part by part comes to, if no object has a
key twice (`deepEqual_eq_true_iff`). Values that stand alone are also
equal if they are texts that differ in case (`Json.Equal`).

As a relation equality is symmetric, and reflexive where there is no NaN.
It does not look at the order of keys (`Same.reordered`) and does not go
across kinds (`Same.kind_of_counterparts`). It is transitive as long as
there are no doubles, which tie with several integers each
(`Same.trans`).
-/

namespace DocStore

namespace Json

/-! ## Parts of values -/

/-- Induction over a value, from its elements and fields. -/
@[elab_as_elim]
theorem induct {motive : Json → Prop} (null : motive .null) (bool : ∀ b, motive (.bool b))
    (int : ∀ n, motive (.int n)) (float : ∀ x, motive (.float x)) (str : ∀ s, motive (.str s))
    (arr : ∀ vs, (∀ v ∈ vs, motive v) → motive (.arr vs))
    (obj : ∀ fs : Fields, (∀ f ∈ fs, motive f.2) → motive (.obj fs)) (v : Json) : motive v := by
  refine @Json.rec motive (fun vs => ∀ v ∈ vs, motive v) (fun fs => ∀ f ∈ fs, motive f.2)
    (fun f => motive f.2) null bool int float str arr obj ?_ ?_ ?_ ?_ ?_ v
  · exact List.forall_mem_nil _
  · intro v vs hv hvs
    exact List.forall_mem_cons.mpr ⟨hv, hvs⟩
  · exact List.forall_mem_nil _
  · intro f fs hf hfs
    exact List.forall_mem_cons.mpr ⟨hf, hfs⟩
  · intro key v hv
    exact hv

theorem exists_getElem?_of_length {vs ws : List Json} {i : Nat} {v : Json}
    (length : vs.length = ws.length) (hv : vs[i]? = some v) : ∃ w, ws[i]? = some w := by
  have hlt : i < ws.length := length ▸ (List.getElem?_eq_some_iff.mp hv).1
  exact ⟨ws[i], List.getElem?_eq_getElem hlt⟩

/-- No object inside the value has a key twice. -/
def Keyed (v : Json) : Prop :=
  ∀ fields : Fields, (obj fields).Inside v → fields.keys.Nodup

section Keyed

variable {v : Json} {vs : List Json} {key : String} {fs : Fields}

theorem Keyed.nodup (h : (obj fs).Keyed) : fs.keys.Nodup := h fs .self

theorem Keyed.element (h : (arr vs).Keyed) (hv : v ∈ vs) : v.Keyed :=
  fun fields hfields => h fields (hfields.element hv)

theorem Keyed.field (h : (obj fs).Keyed) (hv : (key, v) ∈ fs) : v.Keyed :=
  fun fields hfields => h fields (hfields.field hv)

end Keyed

/-! ## The same but for the order of keys -/

/-- The values are the same, but for the order of keys in objects and the
writing of numbers. -/
inductive Same : Json → Json → Prop
  | null : Same .null .null
  | bool (b : Bool) : Same (.bool b) (.bool b)
  | number {v w : Json} (hv : v.kind = .number) (hw : w.kind = .number)
      (h : v.compareNumbers w = .ok (some .eq)) : Same v w
  | str (s : String) : Same (.str s) (.str s)
  | arr {vs ws : List Json} (length : vs.length = ws.length)
      (elements : ∀ (i : Nat) v w, vs[i]? = some v → ws[i]? = some w → Same v w) :
      Same (.arr vs) (.arr ws)
  | obj {fs gs : Fields} (keys : ∀ key, key ∈ fs.keys ↔ key ∈ gs.keys)
      (values : ∀ key v w, Table.get? fs key = some v → Table.get? gs key = some w → Same v w) :
      Same (.obj fs) (.obj gs)

theorem Same.kind {v w : Json} (h : v.Same w) : v.kind = w.kind := by
  cases h with
  | number hv hw _ => rw [hv, hw]
  | _ => rfl

theorem same_of_number_iff {v w : Json} (hv : v.kind = .number) :
    v.Same w ↔ w.kind = .number ∧ v.compareNumbers w = .ok (some .eq) := by
  constructor
  · intro h
    cases h with
    | number _ hw h => exact ⟨hw, h⟩
    | _ => cases hv
  · rintro ⟨hw, h⟩
    exact .number hv hw h

theorem same_bool_iff {b c : Bool} : (bool b).Same (bool c) ↔ b = c := by
  constructor
  · intro h
    cases h with
    | bool => rfl
    | number hv => cases hv
  · rintro rfl
    exact .bool b

theorem same_str_iff {s t : String} : (str s).Same (str t) ↔ s = t := by
  constructor
  · intro h
    cases h with
    | str => rfl
    | number hv => cases hv
  · rintro rfl
    exact .str s

theorem same_arr_iff {vs ws : List Json} :
    (arr vs).Same (arr ws) ↔ vs.length = ws.length ∧
      ∀ (i : Nat) v w, vs[i]? = some v → ws[i]? = some w → v.Same w := by
  constructor
  · intro h
    cases h with
    | arr hlength h => exact ⟨hlength, h⟩
    | number hv => cases hv
  · rintro ⟨hlength, h⟩
    exact .arr hlength h

theorem same_obj_iff {fs gs : Fields} :
    (obj fs).Same (obj gs) ↔ (∀ key, key ∈ fs.keys ↔ key ∈ gs.keys) ∧
      ∀ key v w, Table.get? fs key = some v → Table.get? gs key = some w → v.Same w := by
  constructor
  · intro h
    cases h with
    | obj hkeys h => exact ⟨hkeys, h⟩
    | number hv => cases hv
  · rintro ⟨hkeys, h⟩
    exact .obj hkeys h

/-! ### The comparison part by part -/

theorem numbersEqual_eq_true_iff {v w : Json} :
    v.numbersEqual w = .ok true ↔ v.compareNumbers w = .ok (some .eq) := by
  unfold numbersEqual
  rw [bind_eq_ok_iff]
  constructor
  · rintro ⟨o, ho, heq⟩
    obtain rfl : o = some .eq := beq_iff_eq.mp (Except.ok.inj heq)
    exact ho
  · intro h
    exact ⟨_, h, rfl⟩

theorem deepEqual_of_kind_ne {v w : Json} (h : v.kind ≠ w.kind) : v.deepEqual w = .ok false := by
  cases v <;> cases w <;> first | rfl | exact absurd rfl h

theorem deepEqual_of_number {v : Json} (h : v.kind = .number) (w : Json) :
    v.deepEqual w = v.numbersEqual w := by
  match v, h with
  | .int n, _ => rw [deepEqual]
  | .float x, _ => rw [deepEqual]

theorem deepEqualElements_eq_true_iff {vs ws : List Json} (hlength : vs.length = ws.length) :
    deepEqualElements vs ws = .ok true ↔
      ∀ (i : Nat) v w, vs[i]? = some v → ws[i]? = some w → v.deepEqual w = .ok true := by
  induction vs generalizing ws with
  | nil =>
      rw [deepEqualElements]
      · exact iff_of_true rfl fun i v w hv => by cases hv
      · simp
  | cons v vs ih =>
      match ws, hlength with
      | w :: ws, hlength =>
          rw [deepEqualElements, bind_eq_ok_iff]
          constructor
          · rintro ⟨same, hsame, hrest⟩ i v' w' hv hw
            cases same with
            | false => cases hrest
            | true =>
                cases i with
                | zero =>
                    obtain rfl : v = v' := Option.some.inj hv
                    obtain rfl : w = w' := Option.some.inj hw
                    exact hsame
                | succ i => exact (ih (Nat.succ.inj hlength)).mp hrest i v' w' hv hw
          · intro h
            exact ⟨true, h 0 v w rfl rfl,
              (ih (Nat.succ.inj hlength)).mpr fun i v' w' hv hw => h (i + 1) v' w' hv hw⟩

theorem deepEqualFields_eq_true_iff {fs gs : Fields} :
    deepEqualFields fs gs = .ok true ↔
      ∀ key v, (key, v) ∈ fs → ∃ w, Table.get? gs key = some w ∧ v.deepEqual w = .ok true := by
  induction fs with
  | nil =>
      rw [deepEqualFields]
      exact iff_of_true rfl fun key v hv => by cases hv
  | cons f fs ih =>
      obtain ⟨key, v⟩ := f
      rw [deepEqualFields]
      cases hget : Table.get? gs key with
      | none =>
          refine iff_of_false (fun h => by cases h) fun h => ?_
          obtain ⟨w, hw, -⟩ := h key v (List.mem_cons_self ..)
          rw [hget] at hw
          cases hw
      | some w =>
          rw [bind_eq_ok_iff]
          constructor
          · rintro ⟨same, hsame, hrest⟩ key' v' hmem
            cases same with
            | false => cases hrest
            | true =>
                rcases List.mem_cons.mp hmem with heq | hmem
                · obtain ⟨rfl, rfl⟩ := Prod.mk.inj heq
                  exact ⟨w, hget, hsame⟩
                · exact ih.mp hrest key' v' hmem
          · intro h
            obtain ⟨w', hw', hsame⟩ := h key v (List.mem_cons_self ..)
            rw [hget] at hw'
            obtain rfl := Option.some.inj hw'
            exact ⟨true, hsame, ih.mpr fun key' v' hmem => h key' v' (List.mem_cons_of_mem _ hmem)⟩

theorem deepEqual_arr_iff {vs ws : List Json} :
    (arr vs).deepEqual (arr ws) = .ok true ↔ vs.length = ws.length ∧
      ∀ (i : Nat) v w, vs[i]? = some v → ws[i]? = some w → v.deepEqual w = .ok true := by
  rw [deepEqual]
  split
  · rename_i hlength
    rw [deepEqualElements_eq_true_iff hlength, and_iff_right hlength]
  · rename_i hlength
    exact iff_of_false (fun h => by cases h) fun h => hlength h.1

theorem deepEqual_obj_iff {fs gs : Fields} (hnodup : fs.keys.Nodup) :
    (obj fs).deepEqual (obj gs) = .ok true ↔ (∀ key, key ∈ fs.keys ↔ key ∈ gs.keys) ∧
      ∀ key v w, Table.get? fs key = some v → Table.get? gs key = some w →
        v.deepEqual w = .ok true := by
  have hall : ∀ t u : Fields,
      t.all (fun f => Table.has u f.1) = true ↔ ∀ key ∈ t.keys, key ∈ u.keys := by
    intro t u
    rw [List.all_eq_true, Table.keys, List.forall_mem_map]
    simp only [Table.has_iff_mem_keys]
  have hkeys : (fs.all (fun f => Table.has gs f.1) && gs.all fun g => Table.has fs g.1) = true ↔
      ∀ key, key ∈ fs.keys ↔ key ∈ gs.keys := by
    rw [Bool.and_eq_true, hall, hall, ← forall_and]
    exact forall_congr' fun key => iff_iff_implies_and_implies.symm
  rw [deepEqual]
  split
  · rename_i hsame
    rw [deepEqualFields_eq_true_iff, and_iff_right (hkeys.mp hsame)]
    constructor
    · intro h key v w hv hw
      obtain ⟨w', hw', heq⟩ := h key v (Table.mem_of_get? hv)
      rw [hw] at hw'
      rwa [Option.some.inj hw']
    · intro h key v hmem
      have hv := Table.get?_of_mem hnodup hmem
      obtain ⟨w, hw⟩ := Table.exists_get?_of_mem_keys
        ((hkeys.mp hsame key).mp (Table.mem_keys_of_get? hv))
      exact ⟨w, hw, h key v w hv hw⟩
  · rename_i hsame
    exact iff_of_false (fun h => by cases h) fun h => hsame (hkeys.mpr h.1)

theorem deepEqual_iff_of_kind {v w : Json}
    (h : v.kind = w.kind → (v.deepEqual w = .ok true ↔ v.Same w)) :
    v.deepEqual w = .ok true ↔ v.Same w := by
  by_cases hkind : v.kind = w.kind
  · exact h hkind
  · refine iff_of_false (fun h => ?_) (mt Same.kind hkind)
    rw [deepEqual_of_kind_ne hkind] at h
    cases h

/-- What the comparison part by part comes to, by induction on the first
value. -/
theorem deepEqual_eq_true_iff {v : Json} (hv : v.Keyed) (w : Json) :
    v.deepEqual w = .ok true ↔ v.Same w := by
  refine deepEqual_iff_of_kind fun hkind => ?_
  -- one argument for integers and doubles, which are of one kind
  have hnumber : ∀ {v w : Json}, v.kind = .number → v.kind = w.kind →
      (v.deepEqual w = .ok true ↔ v.Same w) := by
    intro v w hv hkind
    rw [deepEqual_of_number hv, numbersEqual_eq_true_iff, same_of_number_iff hv, ← hkind,
      and_iff_right hv]
  induction v using induct generalizing w with
  | null =>
      match w, hkind with
      | .null, _ => exact iff_of_true rfl .null
  | bool b =>
      match w, hkind with
      | .bool c, _ => rw [deepEqual, Except.ok.injEq, beq_iff_eq, same_bool_iff]
  | int n => exact hnumber rfl hkind
  | float x => exact hnumber rfl hkind
  | str s =>
      match w, hkind with
      | .str t, _ => rw [deepEqual, Except.ok.injEq, beq_iff_eq, same_str_iff]
  | arr vs ih =>
      match w, hkind with
      | .arr ws, _ =>
          rw [deepEqual_arr_iff, same_arr_iff]
          refine and_congr_right fun _ => forall₃_congr fun i v w => imp_congr_right fun hget =>
            imp_congr_right fun _ => deepEqual_iff_of_kind fun hkind => ?_
          have hmem := List.mem_of_getElem? hget
          exact ih v hmem (hv.element hmem) w hkind
  | obj fs ih =>
      match w, hkind with
      | .obj gs, _ =>
          rw [deepEqual_obj_iff hv.nodup, same_obj_iff]
          refine and_congr_right fun _ => forall₃_congr fun key v w => imp_congr_right fun hget =>
            imp_congr_right fun _ => deepEqual_iff_of_kind fun hkind => ?_
          have hmem := Table.mem_of_get? hget
          exact ih (key, v) hmem (hv.field hmem) w hkind

/-! ### Laws -/

theorem Same.symm {v w : Json} (h : v.Same w) : w.Same v := by
  induction h with
  | null => exact .null
  | bool b => exact .bool b
  | number hv hw h =>
      refine .number hw hv ?_
      rw [compareNumbers_swap hv hw, h]
      rfl
  | str s => exact .str s
  | arr length _ ih => exact .arr length.symm fun i v w hv hw => ih i w v hw hv
  | obj keys _ ih =>
      exact .obj (fun key => (keys key).symm) fun key v w hv hw => ih key w v hw hv

theorem same_self {v : Json} (h : ∀ x, (float x).Inside v → x.isNaN = false) : v.Same v := by
  induction v using induct with
  | null => exact .null
  | bool b => exact .bool b
  | int n =>
      have hself : compare n n = .eq := Std.ReflCmp.compare_self
      exact .number rfl rfl (congrArg (fun o => Except.ok (some o)) hself)
  | float x =>
      obtain ⟨k, hk⟩ := Double.orderKey_of_not_nan (h x .self)
      have hself : compareKeys k k = .eq := Std.ReflCmp.compare_self
      exact .number rfl rfl (congrArg Except.ok (hself ▸ Double.compare_of_orderKey hk hk))
  | str s => exact .str s
  | arr vs ih =>
      refine .arr rfl fun i v w hv hw => ?_
      obtain rfl := Option.some.inj (hv.symm.trans hw)
      have hmem := List.mem_of_getElem? hv
      exact ih v hmem fun x hx => h x (hx.element hmem)
  | obj fs ih =>
      refine .obj (fun _ => Iff.rfl) fun key v w hv hw => ?_
      obtain rfl := Option.some.inj (hv.symm.trans hw)
      have hmem := Table.mem_of_get? hv
      exact ih (key, v) hmem fun x hx => h x (hx.field hmem)

/-- No double is inside the value. -/
def DoubleFree (v : Json) : Prop :=
  ∀ x, ¬ (float x).Inside v

theorem DoubleFree.element {v : Json} {vs : List Json} (h : (arr vs).DoubleFree) (hv : v ∈ vs) :
    v.DoubleFree :=
  fun x hx => h x (hx.element hv)

theorem DoubleFree.field {key : String} {v : Json} {fs : Fields} (h : (obj fs).DoubleFree)
    (hv : (key, v) ∈ fs) : v.DoubleFree :=
  fun x hx => h x (hx.field hv)

/-- Integers that are the same are one integer, so a chain that goes
through integers does not break. -/
theorem Same.trans {v w u : Json} (hv : v.DoubleFree) (hw : w.DoubleFree) (h : v.Same w)
    (h' : w.Same u) : v.Same u := by
  induction h generalizing u with
  | null => exact h'
  | bool b => exact h'
  | @number v w hkind hkind' h =>
      match v, hkind, w, hkind' with
      | .int m, _, .int n, _ =>
          have heq : compare m n = .eq := Option.some.inj (Except.ok.inj h)
          rwa [Std.LawfulEqCmp.eq_of_compare heq]
      | .float x, _, _, _ => exact absurd .self (hv x)
      | .int _, _, .float x, _ => exact absurd .self (hw x)
  | str s => exact h'
  | @arr vs ws length _ ih =>
      match u, h'.kind with
      | .arr us, _ =>
          obtain ⟨length', elements'⟩ := same_arr_iff.mp h'
          refine .arr (length.trans length') fun i v u hget hget' => ?_
          obtain ⟨w, hget''⟩ := exists_getElem?_of_length length hget
          exact ih i v w hget hget'' (hv.element (List.mem_of_getElem? hget))
            (hw.element (List.mem_of_getElem? hget'')) (elements' i w u hget'' hget')
  | @obj fs gs keys _ ih =>
      match u, h'.kind with
      | .obj us, _ =>
          obtain ⟨keys', values'⟩ := same_obj_iff.mp h'
          refine .obj (fun key => (keys key).trans (keys' key)) fun key v u hget hget' => ?_
          obtain ⟨w, hget''⟩ :=
            Table.exists_get?_of_mem_keys ((keys key).mp (Table.mem_keys_of_get? hget))
          exact ih key v w hget hget'' (hv.field (Table.mem_of_get? hget))
            (hw.field (Table.mem_of_get? hget'')) (values' key w u hget'' hget')

/-- Values that are the same have values of one kind in every place. -/
theorem Same.kind_of_counterparts {a b v w : Json} (hv : v.Keyed) (hw : w.Keyed) (h : v.Same w)
    (hab : a.Counterparts b v w) : a.kind = b.kind := by
  induction hab with
  | self => exact h.kind
  | element hget hget' _ ih =>
      exact ih (hv.element (List.mem_of_getElem? hget)) (hw.element (List.mem_of_getElem? hget'))
        ((same_arr_iff.mp h).2 _ _ _ hget hget')
  | field hmem hmem' _ ih =>
      exact ih (hv.field hmem) (hw.field hmem')
        ((same_obj_iff.mp h).2 _ _ _ (Table.get?_of_mem hv.nodup hmem)
          (Table.get?_of_mem hw.nodup hmem'))

/-! ### Other orders of keys -/

theorem Reordered.symm {v w : Json} (h : v.Reordered w) : w.Reordered v := by
  induction h with
  | refl v => exact .refl v
  | arr length _ ih => exact .arr length.symm fun i v w hv hw => ih i w v hw hv
  | obj nodup keys _ ih =>
      exact .obj (keys.nodup_iff.mp nodup) keys.symm fun key v w hv hw => ih key w v hw hv

theorem Same.reordered {v v' w : Json} (h : v.Same w) (hv : v.Reordered v') : v'.Same w := by
  induction hv generalizing w with
  | refl v => exact h
  | @arr xs ys length _ ih =>
      match w, h.kind with
      | .arr ws, _ =>
          obtain ⟨length', elements⟩ := same_arr_iff.mp h
          refine .arr (length.symm.trans length') fun i y w hy hw => ?_
          obtain ⟨x, hx⟩ := exists_getElem?_of_length length.symm hy
          exact ih i x y hx hy (elements i x w hx hw)
  | @obj fields fields' nodup keys _ ih =>
      match w, h.kind with
      | .obj gs, _ =>
          obtain ⟨keys', values⟩ := same_obj_iff.mp h
          refine .obj (fun key => keys.mem_iff.symm.trans (keys' key)) fun key y w hy hw => ?_
          obtain ⟨x, hx⟩ :=
            Table.exists_get?_of_mem_keys (keys.mem_iff.mpr (Table.mem_keys_of_get? hy))
          exact ih key x y hx hy (values key x w hx hw)

/-- What is inside a value was inside it before, but for the order of
keys. -/
theorem Reordered.inside {a v v' : Json} (h : v.Reordered v') (ha : a.Inside v') :
    ∃ b : Json, b.Inside v ∧ b.Reordered a := by
  induction ha generalizing v with
  | self => exact ⟨v, .self, h⟩
  | @element y ys ha hmem ih =>
      cases h with
      | refl => exact ⟨a, ha.element hmem, .refl a⟩
      | @arr xs _ length elements =>
          obtain ⟨i, hy⟩ := List.mem_iff_getElem?.mp hmem
          obtain ⟨x, hx⟩ := exists_getElem?_of_length length.symm hy
          obtain ⟨b, hb, hba⟩ := ih (elements i x y hx hy)
          exact ⟨b, hb.element (List.mem_of_getElem? hx), hba⟩
  | @field y key ys ha hmem ih =>
      cases h with
      | refl => exact ⟨a, ha.field hmem, .refl a⟩
      | @obj xs _ nodup keys values =>
          have hy := Table.get?_of_mem (keys.nodup_iff.mp nodup) hmem
          obtain ⟨x, hx⟩ :=
            Table.exists_get?_of_mem_keys (keys.mem_iff.mpr (Table.mem_keys_of_get? hy))
          obtain ⟨b, hb, hba⟩ := ih (values key x y hx hy)
          exact ⟨b, hb.field (Table.mem_of_get? hx), hba⟩

/-! ## Values that equality answers for -/

/-- Keys stand for one value each, no double is NaN, and every integer
can meet any double. -/
structure Regular (v : Json) : Prop where
  keyed : v.Keyed
  notNaN : ∀ x, (float x).Inside v → x.isNaN = false
  inRange : v.InRange

theorem regular_bool (b : Bool) : (bool b).Regular where
  keyed _ h := by cases h
  notNaN _ h := by cases h
  inRange _ h := by cases h

theorem regular_int {n : Int} (hn : n.natAbs < Double.overflowBound) : (int n).Regular where
  keyed _ h := by cases h
  notNaN _ h := by cases h
  inRange _ h := by
    cases h with
    | self => exact hn

theorem regular_arr {vs : List Json} (h : ∀ v ∈ vs, v.Regular) : (arr vs).Regular where
  keyed fields hfields := by
    cases hfields with
    | element hfields hmem => exact (h _ hmem).keyed fields hfields
  notNaN x hx := by
    cases hx with
    | element hx hmem => exact (h _ hmem).notNaN x hx
  inRange n hn := by
    cases hn with
    | element hn hmem => exact (h _ hmem).inRange n hn

theorem regular_obj {fs : Fields} (hnodup : fs.keys.Nodup) (h : ∀ f ∈ fs, f.2.Regular) :
    (obj fs).Regular where
  keyed fields hfields := by
    cases hfields with
    | self => exact hnodup
    | field hfields hmem => exact (h _ hmem).keyed fields hfields
  notNaN x hx := by
    cases hx with
    | field hx hmem => exact (h _ hmem).notNaN x hx
  inRange n hn := by
    cases hn with
    | field hn hmem => exact (h _ hmem).inRange n hn

theorem Regular.reordered {v v' : Json} (h : v.Regular) (hv : v.Reordered v') : v'.Regular where
  keyed fields hfields := by
    obtain ⟨b, hb, hbfields⟩ := hv.inside hfields
    cases hbfields with
    | refl => exact h.keyed fields hb
    | obj nodup keys _ => exact keys.nodup_iff.mp nodup
  notNaN x hx := by
    obtain ⟨b, hb, hbx⟩ := hv.inside hx
    cases hbx with
    | refl => exact h.notNaN x hb
  inRange n hn := by
    obtain ⟨b, hb, hbn⟩ := hv.inside hn
    cases hbn with
    | refl => exact h.inRange n hb

/-! ## Equality -/

/-- The values are equal in a query: as inside arrays and objects, but
texts in lower case. -/
inductive Equal : Json → Json → Prop
  | text {s t : String} (h : Text.lower s.toList = Text.lower t.toList) : Equal (.str s) (.str t)
  | same {v w : Json} (h : v.Same w) : Equal v w

theorem equal_eq_true_iff {v : Json} (hv : v.Keyed) (w : Json) :
    v.equal w = .ok true ↔ v.Equal w := by
  unfold equal
  split
  · rename_i s t
    rw [Except.ok.injEq, beq_iff_eq]
    constructor
    · exact .text
    · intro h
      cases h with
      | text h => exact h
      | same h => rw [same_str_iff.mp h]
  · rename_i hstr
    rw [deepEqual_eq_true_iff hv]
    constructor
    · exact .same
    · intro h
      cases h with
      | text => exact absurd rfl (hstr _ _ rfl)
      | same h => exact h

theorem Equal.symm {v w : Json} (h : v.Equal w) : w.Equal v := by
  cases h with
  | text h => exact .text h.symm
  | same h => exact .same h.symm

theorem Equal.reordered {v v' w : Json} (h : v.Equal w) (hv : v.Reordered v') : v'.Equal w := by
  cases h with
  | text h =>
      cases hv with
      | refl => exact .text h
  | same h => exact .same (h.reordered hv)

theorem Equal.kind_of_counterparts {a b v w : Json} (hv : v.Keyed) (hw : w.Keyed) (h : v.Equal w)
    (hab : a.Counterparts b v w) : a.kind = b.kind := by
  cases h with
  | text =>
      cases hab with
      | self => rfl
  | same h => exact h.kind_of_counterparts hv hw hab

theorem Equal.trans {v w u : Json} (hv : v.DoubleFree) (hw : w.DoubleFree) (h : v.Equal w)
    (h' : w.Equal u) : v.Equal u := by
  cases h with
  | text h =>
      cases h' with
      | text h' => exact .text (h.trans h')
      | same h' =>
          match u, h'.kind with
          | .str _, _ => exact .text (same_str_iff.mp h' ▸ h)
  | same h =>
      cases h' with
      | text h' =>
          match v, h.kind with
          | .str _, _ => exact .text (same_str_iff.mp h ▸ h')
      | same h' => exact .same (h.trans hv hw h')

/-! ### Answers -/

theorem exists_equal {v w : Json} (h : ¬ ClashesInPlace v w) : ∃ b, v.equal w = .ok b := by
  obtain ⟨b, hb, -⟩ := (endsIn_equal v w).exists_ok fun _ => h
  exact ⟨b, hb⟩

/-- Comparisons that answer, and answer yes together, answer the same. -/
theorem equal_congr {v w v' w' : Json} (hv : v.Keyed) (hv' : v'.Keyed)
    (h : ¬ ClashesInPlace v w) (h' : ¬ ClashesInPlace v' w') (heq : v.Equal w ↔ v'.Equal w') :
    v.equal w = v'.equal w' := by
  obtain ⟨b, hb⟩ := exists_equal h
  obtain ⟨b', hb'⟩ := exists_equal h'
  rw [← equal_eq_true_iff hv, ← equal_eq_true_iff hv', hb, hb', Except.ok.injEq,
    Except.ok.injEq, ← Bool.eq_iff_iff] at heq
  rw [hb, hb', heq]

/-- Where both sides answer, they answer the same. -/
theorem equal_answers_comm {v w : Json} (hv : v.Keyed) (hw : w.Keyed) {b c : Bool}
    (h : v.equal w = .ok b) (h' : w.equal v = .ok c) : b = c := by
  have hiff : v.Equal w ↔ w.Equal v := ⟨.symm, .symm⟩
  rwa [← equal_eq_true_iff hv, ← equal_eq_true_iff hw, h, h', Except.ok.injEq, Except.ok.injEq,
    ← Bool.eq_iff_iff] at hiff

theorem equal_comm {v w : Json} (hv : v.Keyed) (hw : w.Keyed) (h : ¬ ClashesInPlace v w) :
    w.equal v = v.equal w :=
  equal_congr hw hv (mt ClashesInPlace.symm h) h ⟨.symm, .symm⟩

theorem Regular.not_clashesInPlace {v w : Json} (hv : v.Regular) (hw : w.Regular) :
    ¬ ClashesInPlace v w :=
  mt ClashesInPlace.clashes (not_clashes_of_inRange hv.inRange hw.inRange)

theorem equal_reordered {v v' w w' : Json} (hv : v.Regular) (hw : w.Regular)
    (hv' : v.Reordered v') (hw' : w.Reordered w') : v'.equal w' = v.equal w := by
  have hregular := hv.reordered hv'
  refine equal_congr hregular.keyed hv.keyed
    (hregular.not_clashesInPlace (hw.reordered hw')) (hv.not_clashesInPlace hw) ?_
  constructor <;> intro h
  · exact ((h.reordered hv'.symm).symm.reordered hw'.symm).symm
  · exact ((h.reordered hv').symm.reordered hw').symm

theorem equal_of_kind_ne {a b v w : Json} (hv : v.Regular) (hw : w.Regular)
    (hab : a.Counterparts b v w) (hkind : a.kind ≠ b.kind) : v.equal w = .ok false := by
  obtain ⟨answer, hanswer⟩ := exists_equal (hv.not_clashesInPlace hw)
  cases answer with
  | false => exact hanswer
  | true =>
      have heq := (equal_eq_true_iff hv.keyed w).mp hanswer
      exact absurd (heq.kind_of_counterparts hv.keyed hw.keyed hab) hkind

/-- **Equality is sound on values of any depth.** It answers, it is
reflexive and symmetric, it does not look at the order of keys, and it
tells values apart that differ in kind in some place. Among values without
doubles it is transitive. -/
theorem equal_sound {v w u : Json} (hv : v.Regular) (hw : w.Regular) :
    v.equal v = .ok true ∧
      (∃ answer, v.equal w = .ok answer ∧ w.equal v = .ok answer) ∧
      (∀ v' w', v.Reordered v' → w.Reordered w' → v'.equal w' = v.equal w) ∧
      (∀ a b : Json, a.Counterparts b v w → a.kind ≠ b.kind → v.equal w = .ok false) ∧
      (v.DoubleFree → w.DoubleFree → v.equal w = .ok true → w.equal u = .ok true →
        v.equal u = .ok true) := by
  refine ⟨?_, ?_, ?_, ?_, ?_⟩
  · exact (equal_eq_true_iff hv.keyed v).mpr (.same (same_self hv.notNaN))
  · obtain ⟨answer, hanswer⟩ := exists_equal (hv.not_clashesInPlace hw)
    refine ⟨answer, hanswer, ?_⟩
    rw [equal_comm hv.keyed hw.keyed (hv.not_clashesInPlace hw), hanswer]
  · exact fun v' w' hv' hw' => equal_reordered hv hw hv' hw'
  · exact fun a b hab hkind => equal_of_kind_ne hv hw hab hkind
  · intro hfree hfree' h h'
    rw [equal_eq_true_iff hv.keyed] at h ⊢
    rw [equal_eq_true_iff hw.keyed] at h'
    exact h.trans hfree hfree' h'

/-- Keys in another order are the same object, true in place of one is
another. -/
theorem equal_sound_nested :
    let large : Int := 2 ^ 1023 - 1
    let v := obj [("a", arr [bool true]), ("b", int large)]
    let v' := obj [("b", int large), ("a", arr [bool true])]
    let w := obj [("a", arr [int 1]), ("b", int large)]
    v.equal v' = .ok true ∧ v'.equal v = .ok true ∧ v.equal w = .ok false ∧
      w.equal v = .ok false := by
  intro large v v' w
  have hlarge : (int large).Regular := regular_int (by decide +kernel)
  have htrue : (arr [bool true]).Regular := regular_arr (by simpa using regular_bool true)
  have hone : (arr [int 1]).Regular :=
    regular_arr (by simpa using regular_int (by decide +kernel))
  have hv : v.Regular := regular_obj (by decide) (by simpa using ⟨htrue, hlarge⟩)
  have hw : w.Regular := regular_obj (by decide) (by simpa using ⟨hone, hlarge⟩)
  have hv' : v.Reordered v' := .of_perm (by decide) (.swap ..)
  have hplace : (bool true).Counterparts (int 1) v w :=
    .field (List.mem_cons_self ..) (List.mem_cons_self ..) (.element (i := 0) rfl rfl .self)
  obtain ⟨hself, -, hkeys, -, -⟩ := equal_sound (u := v) hv hv
  obtain ⟨-, ⟨answer, hvw, hwv⟩, -, hkind, -⟩ := equal_sound (u := v) hv hw
  have hanswer : v.equal w = .ok false := hkind _ _ hplace (by decide)
  obtain rfl : answer = false := Except.ok.inj (hvw.symm.trans hanswer)
  exact ⟨(hkeys v v' (.refl v) hv').trans hself, (hkeys v' v hv' (.refl v)).trans hself, hvw, hwv⟩

end Json

end DocStore
