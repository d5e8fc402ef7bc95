import Mathlib.Data.List.Perm.Basic
import Fexpr.Value.Key
import Fexpr.Proofs.Application
import Fexpr.Proofs.Containment
import Fexpr.Proofs.Depth
import Fexpr.Proofs.Registry
import Fexpr.Proofs.Tracing

/-!
# Equality

Two values are compared part by part, as deep as there is room, and lists that bear one number are
equal without a look. Of registered values this finds out whether they are the same tree, but for
the numbers of lists (`Value.eq_true_iff_of_same?`). So equality is an equivalence, no matter which
of two values is compared with the other, and equal values have equal hashes
(`Value.Equal.hashBy_eq`).

The builtin `=` evaluates all its operands before it compares, and then compares every value with
the first one only.

Main statement: `=` tells whether all pairs of values are equal, and `/=` the opposite, unless the
values nest too deep to be compared (`equality_of_all_pairs`). How deep is too deep is up to the
levels that are left, not to the values: of the same two lists one comparison finds out that they
are equal, and another gives up.
-/

namespace Fexpr

/-! ## Equal values -/

namespace Value

/-- The values are equal: compared deep enough, they are found to be. -/
def Equal (v w : Value) : Prop :=
  ∃ room, same? room v w = some true

/-- Any two of the values are equal. -/
def AllEqual (vs : List Value) : Prop :=
  ∀ v ∈ vs, ∀ w ∈ vs, v.Equal w

variable {R : Registry} {u v w first : Value} {vs ws others : List Value} {room : Nat}
  {answer : Bool} {h : Hashing}

/-! ### Either way round -/

theorem isSameMaking_comm (m n : Option Nat) : isSameMaking m n = isSameMaking n m := by
  cases m <;> cases n <;> simp only [isSameMaking]
  exact BEq.comm

theorem sameItems?_comm {same : Value → Value → Option Bool} (hsame : ∀ x y, same x y = same y x)
    (xs ys : List Value) : sameItems? same xs ys = sameItems? same ys xs := by
  induction xs generalizing ys with
  | nil => cases ys <;> rfl
  | cons x xs ih =>
    cases ys with
    | nil => rfl
    | cons y ys => rw [sameItems?, sameItems?, hsame x y, ih ys]

/-- It does not matter which of two values is compared with the other. -/
theorem same?_comm (room : Nat) (v w : Value) : same? room v w = same? room w v := by
  induction room generalizing v w with
  | zero => rfl
  | succ room ih =>
    cases v with
    | list xs m =>
      cases w with
      | list ys n => rw [same?, same?, isSameMaking_comm m n, sameItems?_comm ih xs ys]
      | _ => rfl
    | quote a =>
      cases w with
      | quote b => exact ih a b
      | _ => rfl
    | unquote a =>
      cases w with
      | unquote b => exact ih a b
      | _ => rfl
    | builtin op home =>
      cases w with
      | builtin op' home' => rw [same?, same?, BEq.comm (a := op), BEq.comm (a := home)]
      | _ => rfl
    | _ => cases w <;> first | rfl | exact congrArg some BEq.comm

/-! ### The same tree -/

/-- Items are compared in order, and rows of items are the same if each is the same. -/
theorem eq_true_iff_of_sameItems? {same : Value → Value → Option Bool} {xs ys : List Value}
    (hsame : ∀ x ∈ xs, ∀ y ∈ ys, ∀ {answer}, same x y = some answer →
      (answer = true ↔ x.asRead = y.asRead))
    (hanswer : sameItems? same xs ys = some answer) :
    answer = true ↔ xs.map asRead = ys.map asRead := by
  induction xs generalizing ys with
  | nil =>
    cases ys <;> cases hanswer
    · exact iff_of_true rfl rfl
    · exact iff_of_false nofun nofun
  | cons x xs ih =>
    cases ys with
    | nil =>
      cases hanswer
      exact iff_of_false nofun nofun
    | cons y ys =>
      have hfirst := @hsame x List.mem_cons_self y List.mem_cons_self
      rw [List.map_cons, List.map_cons, List.cons.injEq]
      rw [sameItems?] at hanswer
      -- Only where the first items are equal do the others count.
      rcases hxy : same x y with _ | _ | _ <;> rw [hxy] at hanswer
      · cases hanswer
      · cases hanswer
        exact iff_of_false nofun fun hboth => Bool.false_ne_true ((hfirst hxy).2 hboth.1)
      · rw [and_iff_right ((hfirst hxy).1 rfl)]
        exact ih (fun x' hx' y' hy' => hsame x' (List.mem_cons_of_mem x hx') y'
          (List.mem_cons_of_mem y hy')) hanswer

theorem exists_of_isSameMaking {m n : Option Nat} (h : isSameMaking m n = true) :
    ∃ k, m = some k ∧ n = some k := by
  cases m with
  | none => cases h
  | some k =>
    cases n with
    | none => cases h
    | some k' => exact ⟨k, rfl, congrArg some (eq_of_beq h).symm⟩

/-- Registered things are the same if their numbers are, and only then. -/
theorem beq_iff_asRead_eq {m n : Nat} (hv : R.Has v) (hw : R.Has w)
    (hsame : m = n → R.recorded? v = R.recorded? w) (hnumber : v.asRead = w.asRead → m = n) :
    (m == n) = true ↔ v.asRead = w.asRead := by
  rw [beq_iff_eq]
  exact ⟨fun heq => congrArg asRead (hv.eq_of_recorded?_eq hw (hsame heq)), hnumber⟩

/-- What the comparison of registered values answers is whether they are the same tree, but for the
numbers of lists. -/
theorem eq_true_iff_of_same? (hv : R.Has v) (hw : R.Has w)
    (hanswer : same? room v w = some answer) : answer = true ↔ v.asRead = w.asRead := by
  induction room generalizing v w answer with
  | zero => cases hanswer
  | succ room ih =>
    cases v with
    | symbol | number | string | nil | builtin | hostNumber | hostText =>
      cases w <;> cases hanswer <;> simp [asRead]
    | list xs m =>
      cases w with
      | list ys n =>
        rw [same?] at hanswer
        split at hanswer
        next hmade =>
          -- Lists that bear one number are one thing.
          cases hanswer
          obtain ⟨k, rfl, rfl⟩ := exists_of_isSameMaking hmade
          exact iff_of_true rfl (congrArg asRead (Registry.Has.eq_of_recorded?_eq hv hw rfl))
        · rw [asRead, asRead, allAsRead_eq_map, allAsRead_eq_map, list.injEq, and_iff_left rfl]
          exact eq_true_iff_of_sameItems? (fun x hx y hy => ih (hv.item hx) (hw.item hy)) hanswer
      | _ =>
        cases hanswer
        simp [asRead]
    | quote a =>
      cases w with
      | quote b =>
        rw [asRead, asRead, quote.injEq]
        exact ih hv.quoted hw.quoted hanswer
      | _ =>
        cases hanswer
        simp [asRead]
    | unquote a =>
      cases w with
      | unquote b =>
        rw [asRead, asRead, unquote.injEq]
        exact ih hv.unquoted hw.unquoted hanswer
      | _ =>
        cases hanswer
        simp [asRead]
    | raiser =>
      cases w with
      | raiser =>
        cases hanswer
        exact beq_iff_asRead_eq hv hw (fun heq => heq ▸ rfl) fun heq => (raiser.inj heq).2
      | _ =>
        cases hanswer
        simp [asRead]
    | fexpr =>
      cases w with
      | fexpr =>
        cases hanswer
        exact beq_iff_asRead_eq hv hw (fun heq => heq ▸ rfl) fun heq => (fexpr.inj heq).1
      | _ =>
        cases hanswer
        simp [asRead]
    | suspended =>
      cases w with
      | suspended =>
        cases hanswer
        exact beq_iff_asRead_eq hv hw (fun heq => heq ▸ rfl) fun heq => (suspended.inj heq).2.2.2
      | _ =>
        cases hanswer
        simp [asRead]

/-- Registered values are equal exactly if they are the same tree, but for the numbers of lists. -/
theorem equal_iff_asRead_eq (hv : R.Has v) (hw : R.Has w) : v.Equal w ↔ v.asRead = w.asRead := by
  constructor
  · rintro ⟨room, hsame⟩
    exact (eq_true_iff_of_same? hv hw hsame).1 rfl
  · intro heq
    have hne : same? v.height v w ≠ none := same?_ne_none (Nat.le_refl v.height) w
    obtain ⟨answer, hanswer⟩ := Option.ne_none_iff_exists'.1 hne
    refine ⟨v.height, ?_⟩
    rw [hanswer, (eq_true_iff_of_same? hv hw hanswer).2 heq]

/-- However deep registered values are compared, the answer, if there is one, is whether they are
equal. -/
theorem eq_true_iff_equal (hv : R.Has v) (hw : R.Has w) (hanswer : same? room v w = some answer) :
    answer = true ↔ v.Equal w :=
  (eq_true_iff_of_same? hv hw hanswer).trans (equal_iff_asRead_eq hv hw).symm

theorem Equal.symm (h : v.Equal w) : w.Equal v := by
  obtain ⟨room, hsame⟩ := h
  exact ⟨room, (same?_comm room w v).trans hsame⟩

/-! ### Keys -/

theorem hashAllBy_eq_map (h : Hashing) (items : List Value) :
    hashAllBy h items = items.map (hashBy h) := by
  induction items with
  | nil => rfl
  | cons v vs ih => rw [hashAllBy, ih, List.map_cons]

/-- The numbers of lists do not count for a hash. -/
theorem hashBy_asRead (h : Hashing) (v : Value) : v.asRead.hashBy h = v.hashBy h := by
  induction v using induction_parts with
  | step v ih =>
    cases v with
    | list items made =>
      have hitems : (items.map asRead).map (hashBy h) = items.map (hashBy h) := by
        rw [List.map_map]
        exact List.map_congr_left ih
      rw [asRead, hashBy, hashBy, hashAllBy_eq_map, hashAllBy_eq_map, allAsRead_eq_map, hitems]
    | quote body | unquote body => rw [asRead, hashBy, hashBy, ih body (List.mem_singleton.2 rfl)]
    | _ => rfl

/-- Equal values have equal hashes. -/
theorem Equal.hashBy_eq (heq : v.Equal w) (hv : R.Has v) (hw : R.Has w) (h : Hashing) :
    v.hashBy h = w.hashBy h := by
  rw [← hashBy_asRead, ← hashBy_asRead h w, (equal_iff_asRead_eq hv hw).1 heq]

/-- Values are found to be one key where they are found to be equal. -/
theorem isOneKey?_iff (hv : R.Has v) (hw : R.Has w) (h : Hashing) (room : Nat) :
    isOneKey? h room v w = some true ↔ same? room v w = some true := by
  unfold isOneKey?
  split
  · rfl
  next hne =>
    exact iff_of_false nofun fun hsame => hne (Equal.hashBy_eq ⟨room, hsame⟩ hv hw h)

/-! ### Laws -/

/-- What holds of equality among the values that a registry has. -/
structure EqualityLaws (R : Registry) : Prop where
  refl : ∀ {v}, R.Has v → v.Equal v
  symm : ∀ {v w : Value}, v.Equal w → w.Equal v
  trans : ∀ {u v w}, R.Has u → R.Has v → R.Has w → u.Equal v → v.Equal w → u.Equal w
  /-- Equal values have the same shape, with the same constructors and the same leaves. -/
  same_tree : ∀ {v w}, R.Has v → R.Has w → (v.Equal w ↔ v.asRead = w.asRead)
  /-- However deep values are compared, an answer is right. -/
  answer : ∀ {v w room answer}, R.Has v → R.Has w → same? room v w = some answer →
    (answer = true ↔ v.Equal w)
  /-- There is one if one of the values is not higher than the room. -/
  room : ∀ {v w room}, v.height ≤ room ∨ w.height ≤ room → same? room v w ≠ none
  /-- Equal values have one hash, and are found to be one key where they are found to be equal. -/
  key : ∀ {v w}, R.Has v → R.Has w → ∀ h room, (v.Equal w → v.hashBy h = w.hashBy h) ∧
    (isOneKey? h room v w = some true ↔ same? room v w = some true)

theorem equalityLaws (R : Registry) : EqualityLaws R where
  refl hv := (equal_iff_asRead_eq hv hv).2 rfl
  symm := Equal.symm
  trans hu hv hw huv hvw := (equal_iff_asRead_eq hu hw).2
    (((equal_iff_asRead_eq hu hv).1 huv).trans ((equal_iff_asRead_eq hv hw).1 hvw))
  same_tree := equal_iff_asRead_eq
  answer := eq_true_iff_equal
  room := by
    rintro v w room (hv | hw)
    · exact same?_ne_none hv w
    · rw [same?_comm]
      exact same?_ne_none hw v
  key hv hw h room := ⟨fun heq => heq.hashBy_eq hv hw h, isOneKey?_iff hv hw h room⟩

/-! ### Rows of values -/

/-- Values are all equal if each is equal to the first. -/
theorem allEqual_cons_iff (hvs : R.HasAll (first :: others)) :
    AllEqual (first :: others) ↔ ∀ v ∈ others, v.Equal first := by
  constructor
  · exact fun hall v hv => hall v (List.mem_cons_of_mem first hv) first List.mem_cons_self
  · intro hfirst
    have hread : ∀ v ∈ first :: others, v.asRead = first.asRead := by
      refine List.forall_mem_cons.2 ⟨rfl, fun v hv => ?_⟩
      exact (equal_iff_asRead_eq (hvs v (List.mem_cons_of_mem first hv))
        (hvs first List.mem_cons_self)).1 (hfirst v hv)
    intro v hv w hw
    exact (equal_iff_asRead_eq (hvs v hv) (hvs w hw)).2 ((hread v hv).trans (hread w hw).symm)

/-- To compare all values with the first one, as far as that answers, is to compare all pairs. -/
theorem eq_true_iff_of_allSame? (hvs : R.HasAll (first :: others))
    (hanswer : allSame? room first others = some answer) :
    answer = true ↔ AllEqual (first :: others) := by
  rw [allEqual_cons_iff hvs]
  obtain ⟨hfirst, hothers⟩ := Registry.hasAll_cons.1 hvs
  clear hvs
  induction others with
  | nil =>
    cases hanswer
    exact iff_of_true rfl nofun
  | cons v vs ih =>
    obtain ⟨hv, hvs⟩ := Registry.hasAll_cons.1 hothers
    rw [List.forall_mem_cons]
    rw [allSame?] at hanswer
    rcases hsame : same? room v first with _ | _ | _ <;> rw [hsame] at hanswer
    · cases hanswer
    · cases hanswer
      have hne : ¬ v.Equal first := fun heq =>
        Bool.false_ne_true ((eq_true_iff_equal hv hfirst hsame).2 heq)
      exact iff_of_false Bool.false_ne_true fun hboth => hne hboth.1
    · rw [and_iff_right ((eq_true_iff_equal hv hfirst hsame).1 rfl)]
      exact ih hanswer hvs

/-- The order of values does not matter to whether they are all equal. -/
theorem allEqual_of_perm (hperm : vs.Perm ws) : AllEqual vs ↔ AllEqual ws := by
  unfold AllEqual
  simp only [hperm.mem_iff]

end Value

/-! ## Calls -/

namespace Level

/-- Expressions are evaluated in turn, each of them once, and have the values. -/
def ValuesInTurn (lv : Level) (frame : FrameId) (es : List Value) (m : Machine) (vs : List Value)
    (m' : Machine) : Prop :=
  InTurn (fun e m r m' => lv.evaluate e frame m = (r, m')) es m (.ok vs) m'

variable {lv : Level} {limits : Limits} {frame : FrameId} {es vs : List Value} {m m' : Machine}
  {R : Registry} {c : Call}

theorem ValuesInTurn.evaluateAll_run (h : lv.ValuesInTurn frame es m vs m') :
    lv.evaluateAll frame es m = (.ok vs, m') := by
  induction es generalizing m vs with
  | nil =>
    obtain ⟨rfl, rfl⟩ := InTurn.ok_nil_iff.1 h
    rfl
  | cons e es ih =>
    obtain ⟨v, vs, m₁, rfl, hrun, hs⟩ := InTurn.ok_cons_iff.1 h
    have hvalue : lv.evaluate e frame m = (.ok v, m₁) := hrun
    rw [evaluateAll, Eval.bind_run, hvalue]
    dsimp only
    rw [Eval.bind_run, ih hs]
    rfl

theorem ValuesInTurn.length_eq (h : lv.ValuesInTurn frame es m vs m') : vs.length = es.length := by
  have hmap := InTurn.map_eq (f := fun _ => ()) (g := fun _ => ()) (fun _ => rfl) h
  simpa using congrArg List.length hmap

/-- Registered expressions have values that are registered by then. -/
theorem ValuesInTurn.registers (hlv : lv.Registers) (hm : R.Holds m) (hes : R.HasAll es)
    (h : lv.ValuesInTurn frame es m vs m') : ∃ S, R ≤ S ∧ S.Holds m' ∧ S.HasAll vs := by
  obtain ⟨S, hle, hS, hvs⟩ := hlv.evaluateAll hes frame m hm
  rw [h.evaluateAll_run] at hS hvs
  exact ⟨S, hle, hS, hvs vs rfl⟩

/-- With fewer levels expressions have the same values in turn, unless one of them lacks levels. -/
theorem ValuesInTurn.with_fewer_levels {a b : Nat} (hle : a ≤ b)
    (h : (limits.level b).ValuesInTurn frame es m vs m') :
    (limits.level a).ValuesInTurn frame es m vs m' ∨
      ((limits.level a).evaluateAll frame es m).1 = .error .tooDeep := by
  induction es generalizing m vs with
  | nil =>
    obtain ⟨rfl, rfl⟩ := InTurn.ok_nil_iff.1 h
    exact Or.inl (.nil m')
  | cons e es ih =>
    obtain ⟨v, vs, m₁, rfl, hrun, hs⟩ := InTurn.ok_cons_iff.1 h
    have hvalue : (limits.level b).evaluate e frame m = (.ok v, m₁) := hrun
    rw [evaluateAll, Eval.bind_run]
    rcases evaluateWithin_of_more_levels limits limits.levels hle 0 e frame m with hdeep | heq
    · right
      rcases hfewer : (limits.level a).evaluate e frame m with ⟨r, m₂⟩
      obtain rfl : r = .error .tooDeep := (congrArg Prod.fst hfewer).symm.trans hdeep
      rfl
    · have hfewer : (limits.level a).evaluate e frame m = (.ok v, m₁) := heq.trans hvalue
      rw [hfewer]
      dsimp only
      rw [Eval.bind_run]
      rcases ih hs with hs' | hdeep
      · exact Or.inl (InTurn.cons hfewer hs')
      · right
        rcases hrest : (limits.level a).evaluateAll frame es m₁ with ⟨r, m₂⟩
        obtain rfl : r = .error .tooDeep := (congrArg Prod.fst hrest).symm.trans hdeep
        rfl

/-- Once all operands have values, the comparison changes nothing. -/
theorem allEqual_run {first : Value} {others : List Value}
    (h : lv.ValuesInTurn c.frame c.operands m (first :: others) m') :
    lv.allEqual c m =
      ((Value.allSame? lv.room first others).elim (.error .tooDeep) .ok, m') := by
  have hne : ¬ c.operands.isEmpty = true := by
    intro hempty
    have hlength := h.length_eq
    rw [List.isEmpty_iff.1 hempty] at hlength
    cases hlength
  unfold allEqual
  rw [if_neg hne]
  change (lv.evaluateAll c.frame c.operands >>= _) m = _
  rw [Eval.bind_run, h.evaluateAll_run]
  dsimp only
  cases Value.allSame? lv.room first others <;> rfl

/-- The comparison gives up only if some value is higher than the room, and else answers whether all
pairs of values are equal. -/
theorem allEqual_run_cases (hne : c.operands ≠ []) (hvs : R.HasAll vs)
    (h : lv.ValuesInTurn c.frame c.operands m vs m') :
    (lv.allEqual c m = (.error .tooDeep, m') ∧ lv.room < Value.heightOfAll vs) ∨
      ∃ answer, lv.allEqual c m = (.ok answer, m') ∧ (answer = true ↔ Value.AllEqual vs) := by
  cases vs with
  | nil => exact absurd (List.length_eq_zero_iff.1 h.length_eq.symm) hne
  | cons first others =>
    rw [allEqual_run h]
    cases hanswer : Value.allSame? lv.room first others with
    | none =>
      refine Or.inl ⟨rfl, Nat.lt_of_not_le fun hle => ?_⟩
      exact Value.allSame?_ne_none (Nat.le_trans (Nat.le_max_right _ _) hle) first hanswer
    | some answer => exact Or.inr ⟨answer, rfl, Value.eq_true_iff_of_allSame? hvs hanswer⟩

/-- With fewer levels the comparison gives up, because some value is higher than the room, or
answers what it does with more. -/
theorem allEqual_run_deepens {a b : Nat} (hle : a ≤ b) (hne : es ≠ []) (hvs : R.HasAll vs)
    (ha : (limits.level a).ValuesInTurn frame es m vs m')
    (hb : (limits.level b).ValuesInTurn frame es m vs m') (text text' : String) :
    ((limits.level a).allEqual ⟨es, frame, text⟩ m = (.error .tooDeep, m') ∧
        roomOf a < Value.heightOfAll vs) ∨
      ∃ answer, (limits.level a).allEqual ⟨es, frame, text⟩ m = (.ok answer, m') ∧
        (limits.level b).allEqual ⟨es, frame, text'⟩ m = (.ok answer, m') := by
  rcases allEqual_run_cases (c := ⟨es, frame, text⟩) hne hvs ha with hdeep | ⟨answer, hanswer, -⟩
  · exact Or.inl hdeep
  · refine Or.inr ⟨answer, hanswer, ?_⟩
    cases vs with
    | nil => exact absurd (List.length_eq_zero_iff.1 ha.length_eq.symm) hne
    | cons first others =>
      rw [allEqual_run (c := ⟨es, frame, text⟩) ha] at hanswer
      rw [allEqual_run (c := ⟨es, frame, text'⟩) hb, ← hanswer]
      have hdeepens : Value.allSame? (limits.level a).room first others = none ∨
          Value.allSame? (limits.level a).room first others =
            Value.allSame? (limits.level b).room first others :=
        Value.allSame?_deepens (Comparison.roomOf_mono hle) first others
      rcases hdeepens with hnone | heq
      · rw [hnone] at hanswer
        cases hanswer
      · rw [heq]

theorem equal_run (lv : Level) (c : Call) (m : Machine) :
    lv.equal c m = ((lv.allEqual c m).1.map .ofBool, (lv.allEqual c m).2) := by
  unfold equal
  rw [Eval.bind_run]
  rcases lv.allEqual c m with ⟨_ | _, _⟩ <;> rfl

theorem unequal_run (lv : Level) (c : Call) (m : Machine) :
    lv.unequal c m = ((lv.allEqual c m).1.map fun b => .ofBool !b, (lv.allEqual c m).2) := by
  unfold unequal
  rw [Eval.bind_run]
  rcases lv.allEqual c m with ⟨_ | _, _⟩ <;> rfl

/-- A comparison whose operands lack levels lacks them. -/
theorem allEqual_run_of_tooDeep (hne : c.operands ≠ [])
    (h : (lv.evaluateAll c.frame c.operands m).1 = .error .tooDeep) :
    (lv.allEqual c m).1 = .error .tooDeep := by
  unfold allEqual
  rw [if_neg (by simpa using hne)]
  change ((lv.evaluateAll c.frame c.operands >>= _) m).1 = _
  rw [Eval.bind_run]
  rcases hrun : lv.evaluateAll c.frame c.operands m with ⟨r, m₁⟩
  obtain rfl : r = .error .tooDeep := (congrArg Prod.fst hrun).symm.trans h
  rfl

end Level

/-! ## Forms -/

section

variable {limits : Limits} {levels : Nat} {R : Registry} {frame home home' : FrameId}
  {m m' : Machine} {operands values : List Value} {made : Option Nat} {text : String}

/-- A form that compares, once its operands have values, ends in the answer whether all pairs of
values are equal, unless some value is too high. -/
theorem evaluateWithin_equal_cases
    (hequal : m.store.lookup? frame "=" = some (.builtin .equal home))
    (htext : (Value.list (.symbol "=" :: operands) made).render (roomOf (levels - 1)) = .ok text)
    (hne : operands ≠ []) (hvs : R.HasAll values)
    (hvalues : (limits.level (levels - 8)).ValuesInTurn frame operands m values m') :
    let run := evaluateWithin limits levels 0 (.list (.symbol "=" :: operands) made) frame m
    (run = (.error .tooDeep, m') ∧ roomOf (levels - 8) < Value.heightOfAll values) ∨
      (run = (.ok .t, m') ∧ Value.AllEqual values) ∨
      (run = (.ok .nil, m') ∧ ¬ Value.AllEqual values) := by
  intro run
  have hrun : run = (limits.level (levels - 8)).equal ⟨operands, frame, text⟩ m :=
    evaluateWithin_builtin_of_text .equal hequal htext
  rw [hrun, Level.equal_run]
  rcases Level.allEqual_run_cases (c := ⟨operands, frame, text⟩) hne hvs hvalues with
    ⟨hdeep, hhigh⟩ | ⟨answer, hanswer, hiff⟩
  · rw [hdeep]
    exact Or.inl ⟨rfl, hhigh⟩
  · rw [hanswer]
    cases answer with
    | true => exact Or.inr (Or.inl ⟨rfl, hiff.1 rfl⟩)
    | false => exact Or.inr (Or.inr ⟨rfl, fun hall => Bool.false_ne_true (hiff.2 hall)⟩)

/-- A form that compares with `/=` lacks levels, or answers the opposite of what `=` does. -/
theorem evaluateWithin_unequal_cases
    (hequal : m.store.lookup? frame "=" = some (.builtin .equal home))
    (hunequal : m.store.lookup? frame "/=" = some (.builtin .unequal home'))
    (htext : (Value.list (.symbol "=" :: operands) made).render (roomOf (levels - 1)) = .ok text)
    (hne : operands ≠ []) (hvs : R.HasAll values)
    (hvalues : (limits.level (levels - 8)).ValuesInTurn frame operands m values m') :
    let equal := evaluateWithin limits levels 0 (.list (.symbol "=" :: operands) made) frame m
    let unequal := evaluateWithin limits levels 0 (.list (.symbol "/=" :: operands) made) frame m
    (unequal.1 = .error .tooDeep ∧
      ((limits.level (levels - 9)).ValuesInTurn frame operands m values m' →
        roomOf (levels - 9) < Value.heightOfAll values)) ∨
      ∃ answer, equal = (.ok (.ofBool answer), m') ∧ unequal = (.ok (.ofBool !answer), m') := by
  intro equal unequal
  -- The two forms differ in their names only, so if there is a text of one, there is one of the
  -- other.
  have hwritable : (Value.list (.symbol "=" :: operands) made).IsWritable (roomOf (levels - 1)) :=
    Value.exists_render_iff.1 ⟨text, htext⟩
  obtain ⟨text', htext'⟩ : ∃ text',
      (Value.list (.symbol "/=" :: operands) made).render (roomOf (levels - 1)) = .ok text' :=
    Value.exists_render_iff.2 hwritable
  have hequal_run : equal = (limits.level (levels - 8)).equal ⟨operands, frame, text⟩ m :=
    evaluateWithin_builtin_of_text .equal hequal htext
  have hunequal_run : unequal = (limits.level (levels - 9)).unequal ⟨operands, frame, text'⟩ m :=
    evaluateWithin_builtin_of_text .unequal hunequal htext'
  rw [hequal_run, hunequal_run, Level.equal_run, Level.unequal_run]
  have hle : levels - 9 ≤ levels - 8 := Nat.sub_le_sub_left (Nat.le_succ 8) levels
  rcases hvalues.with_fewer_levels hle with hfewer | hdeep
  · rcases Level.allEqual_run_deepens hle hne hvs hfewer hvalues text' text with
      ⟨hdeep, hhigh⟩ | ⟨answer, hanswer, hdeeper⟩
    · rw [hdeep]
      exact Or.inl ⟨rfl, fun _ => hhigh⟩
    · rw [hanswer, hdeeper]
      exact Or.inr ⟨answer, rfl, rfl⟩
  · refine Or.inl ⟨?_, fun hfewer => ?_⟩
    · rw [Level.allEqual_run_of_tooDeep (c := ⟨operands, frame, text'⟩) hne hdeep]
      rfl
    · rw [hfewer.evaluateAll_run] at hdeep
      cases hdeep

end

/-- Equality is an equivalence on all values that a registry has, however deep they nest; it holds
exactly of those that have the same shape, constructors and leaves, and equal values are one key of
a set. Let a form compare the values of its operands, evaluated in turn and each of them once. Then
`=` leaves the machine as they left it, and its value is `t` if all pairs of values are equal and
nil if not, unless some value is higher than there is room for. Another form with the same values in
another order has the same value, if both have one. On the same machine, `/=` has the opposite value
and leaves the machine in the same way, unless it lacks levels for its operands or for the height of
their values. -/
theorem equality_of_all_pairs (limits : Limits) (levels : Nat) {R : Registry}
    {frame home home' : FrameId} {m m' : Machine} {operands values : List Value}
    {made : Option Nat} {text : String} (hm : R.Holds m) (hoperands : R.HasAll operands)
    (hequal : m.store.lookup? frame "=" = some (.builtin .equal home))
    (hunequal : m.store.lookup? frame "/=" = some (.builtin .unequal home'))
    (htext : (Value.list (.symbol "=" :: operands) made).render (roomOf (levels - 1)) = .ok text)
    (hne : operands ≠ [])
    (hvalues : (limits.level (levels - 8)).ValuesInTurn frame operands m values m') :
    let equal := evaluateWithin limits levels 0 (.list (.symbol "=" :: operands) made) frame m
    let unequal := evaluateWithin limits levels 0 (.list (.symbol "/=" :: operands) made) frame m
    (∀ S, Value.EqualityLaws S) ∧
    (∃ S, R ≤ S ∧ S.Holds m' ∧ S.HasAll values) ∧
    ((equal = (.error .tooDeep, m') ∧ roomOf (levels - 8) < Value.heightOfAll values) ∨
      (equal = (.ok .t, m') ∧ Value.AllEqual values) ∨
      (equal = (.ok .nil, m') ∧ ¬ Value.AllEqual values)) ∧
    (∀ {limits' : Limits} {levels' : Nat} {R' : Registry} {frame' home₁ : FrameId}
        {m₁ m₁' : Machine} {operands' values' : List Value} {made' : Option Nat} {text' : String},
      R'.Holds m₁ → R'.HasAll operands' →
      m₁.store.lookup? frame' "=" = some (.builtin .equal home₁) →
      (Value.list (.symbol "=" :: operands') made').render (roomOf (levels' - 1)) = .ok text' →
      (limits'.level (levels' - 8)).ValuesInTurn frame' operands' m₁ values' m₁' →
      values'.Perm values →
      let equal' := evaluateWithin limits' levels' 0 (.list (.symbol "=" :: operands') made')
        frame' m₁
      equal'.1 = equal.1 ∨
        (equal.1 = .error .tooDeep ∧ roomOf (levels - 8) < Value.heightOfAll values) ∨
        (equal'.1 = .error .tooDeep ∧ roomOf (levels' - 8) < Value.heightOfAll values')) ∧
    ((unequal.1 = .error .tooDeep ∧
        ((limits.level (levels - 9)).ValuesInTurn frame operands m values m' →
          roomOf (levels - 9) < Value.heightOfAll values)) ∨
      ∃ answer, equal = (.ok (.ofBool answer), m') ∧ unequal = (.ok (.ofBool !answer), m')) := by
  intro equal unequal
  obtain ⟨S, hle, hS, hvs⟩ := hvalues.registers (limits.registers_level _) hm hoperands
  have hcases := evaluateWithin_equal_cases hequal htext hne hvs hvalues
  refine ⟨Value.equalityLaws, ⟨S, hle, hS, hvs⟩, hcases, ?_,
    evaluateWithin_unequal_cases hequal hunequal htext hne hvs hvalues⟩
  intro limits' levels' R' frame' home₁ m₁ m₁' operands' values' made' text' hm' hoperands'
    hequal' htext' hvalues' hperm equal'
  obtain ⟨S', -, -, hvs'⟩ := hvalues'.registers (limits'.registers_level _) hm' hoperands'
  have hne' : operands' ≠ [] := by
    have hlength : operands'.length = operands.length :=
      hvalues'.length_eq.symm.trans (hperm.length_eq.trans hvalues.length_eq)
    exact fun hnil => hne (List.length_eq_zero_iff.1 (hlength.symm.trans (hnil ▸ rfl)))
  have hsame : Value.AllEqual values' ↔ Value.AllEqual values := Value.allEqual_of_perm hperm
  rcases hcases with ⟨hrun, hhigh⟩ | hrun
  · exact Or.inr (Or.inl ⟨congrArg Prod.fst hrun, hhigh⟩)
  rcases evaluateWithin_equal_cases hequal' htext' hne' hvs' hvalues' with ⟨hrun', hhigh'⟩ | hrun'
  · exact Or.inr (Or.inr ⟨congrArg Prod.fst hrun', hhigh'⟩)
  -- Both forms have a value, and these tell of the same pairs.
  left
  rcases hrun with ⟨hrun, hall⟩ | ⟨hrun, hnot⟩ <;> rcases hrun' with ⟨hrun', hall'⟩ | ⟨hrun', hnot'⟩
  · exact (congrArg Prod.fst hrun').trans (congrArg Prod.fst hrun).symm
  · exact absurd (hsame.2 hall) hnot'
  · exact absurd (hsame.1 hall') hnot
  · exact (congrArg Prod.fst hrun').trans (congrArg Prod.fst hrun).symm

/-- A list of one item compared with a quoted one, a bound one and one that is made: `=` finds them
all equal, `/=` answers nil, and both leave behind that one list was made. -/
theorem equality_of_all_pairs_made_list :
    let v := Value.list [.t] none
    let m := { Machine.empty with store := Store.empty.global [("x", v)] }
    let m' := { m with nextId := 1 }
    let operands := [.quote v, .symbol "x", .list [.symbol "list", .t] none]
    let values := [v, v, .list [.t] (some 0)]
    Registry.empty.Holds m ∧ Registry.empty.HasAll operands ∧
      (Limits.level {} 92).ValuesInTurn 0 operands m values m' ∧ Value.AllEqual values ∧
      evaluateWithin {} 100 0 (.list (.symbol "=" :: operands) none) 0 m = (.ok .t, m') ∧
      evaluateWithin {} 100 0 (.list (.symbol "/=" :: operands) none) 0 m = (.ok .nil, m') := by
  intro v m m' operands values
  have hv : Registry.empty.Has v :=
    Registry.has_list (List.forall_mem_singleton.2 (Registry.has_symbol "t"))
  have hm : Registry.empty.Holds m := Registry.holds_global (List.forall_mem_singleton.2 hv)
  have hoperands : Registry.empty.HasAll operands := by
    refine Registry.hasAll_cons.2 ⟨Registry.has_quote hv, Registry.hasAll_cons.2
      ⟨Registry.has_symbol "x", List.forall_mem_singleton.2 (Registry.has_list ?_)⟩⟩
    exact Registry.hasAll_cons.2
      ⟨Registry.has_symbol "list", List.forall_mem_singleton.2 (Registry.has_symbol "t")⟩
  have hvalues (levels : Nat)
      (hlist : (Limits.level {} (levels + 1)).evaluate (.list [.symbol "list", .t] none) 0 m =
        (.ok (.list [.t] (some 0)), m')) :
      (Limits.level {} (levels + 1)).ValuesInTurn 0 operands m values m' :=
    .cons rfl (.cons rfl (.cons hlist (.nil m')))
  have henough : (Limits.level {} 92).ValuesInTurn 0 operands m values m' := hvalues 91 rfl
  have htext : (Value.list (.symbol "=" :: operands) none).render (roomOf (100 - 1)) =
      .ok "(= '(t) x (list t))" := rfl
  obtain ⟨-, -, hequal, -, hunequal⟩ :=
    equality_of_all_pairs {} 100 hm hoperands rfl rfl htext (List.cons_ne_nil _ _) henough
  have hhigh : ¬ roomOf (100 - 8) < Value.heightOfAll values := by decide
  have hrun : evaluateWithin {} 100 0 (.list (.symbol "=" :: operands) none) 0 m = (.ok .t, m') :=
    rfl
  refine ⟨hm, hoperands, henough, ?_, hrun, ?_⟩
  · rcases hequal with ⟨-, hdeep⟩ | ⟨-, hall⟩ | ⟨hnil, -⟩
    · exact absurd hdeep hhigh
    · exact hall
    · rw [hrun] at hnil
      cases hnil
  · rcases hunequal with ⟨-, hdeep⟩ | ⟨answer, hanswer, hopposite⟩
    · exact absurd (hdeep (hvalues 90 rfl)) (by decide)
    · rw [hrun] at hanswer
      cases answer with
      | true => exact hopposite
      | false => cases hanswer

/-! ## Towers -/

/-- Lists of one item each, one in the other, made one after the other from a number on. -/
def Value.tower (first : Nat) : Nat → Value
  | 0 => .nil
  | height + 1 => .list [tower first height] (some (first + height))

/-- What two towers of a height are made of, made one after the other. -/
def Registry.ofTowers (height : Nat) : Registry where
  made := (List.range height).map (fun k => Value.tower 0 (k + 1)) ++
    (List.range height).map fun k => Value.tower height (k + 1)
  suspended := []

namespace Value

variable {height room first other : Nat}

theorem asRead_tower (first other height : Nat) :
    (tower first height).asRead = (tower other height).asRead := by
  induction height with
  | zero => rfl
  | succ height ih =>
    rw [tower, tower, asRead, asRead, allAsRead, allAsRead, allAsRead, allAsRead, ih]

/-- Of two towers that were made apart, and fill the room, it is not found out whether they are
equal. -/
theorem same?_tower (hne : first ≠ other) (hroom : room ≤ height) :
    same? room (tower first height) (tower other height) = none := by
  induction room generalizing height with
  | zero => rfl
  | succ room ih =>
    obtain ⟨height, rfl⟩ := Nat.exists_eq_add_of_le' hroom
    have hmade : isSameMaking (some (first + (height + room))) (some (other + (height + room))) =
        false := beq_false_of_ne fun heq => hne (Nat.add_right_cancel heq)
    rw [← Nat.add_assoc, tower, tower, same?, hmade, if_neg Bool.false_ne_true, sameItems?,
      ih (Nat.le_add_left room height)]

end Value

namespace Registry

theorem ofTowers_has (n : Nat) : ∀ height ≤ n,
    (ofTowers n).Has (.tower 0 height) ∧ (ofTowers n).Has (.tower n height) := by
  intro height hheight
  induction height with
  | zero => exact ⟨has_nil, has_nil⟩
  | succ height ih =>
    obtain ⟨hfirst, hsecond⟩ := ih (Nat.le_of_succ_le hheight)
    constructor
    · refine .node ?_ (List.forall_mem_singleton.2 hfirst)
      change (ofTowers n).made[0 + height]? = _
      rw [ofTowers, List.getElem?_append_left (by simp; omega)]
      simp [List.getElem?_range hheight, Value.tower]
    · refine .node ?_ (List.forall_mem_singleton.2 hsecond)
      change (ofTowers n).made[n + height]? = _
      rw [ofTowers, List.getElem?_append_right (by simp)]
      simp [List.getElem?_range hheight, Value.tower]

end Registry

/-- A form that compares the values of two names gives up if the comparison of the second with the
first does. -/
theorem evaluateWithin_equal_of_names {limits : Limits} {levels : Nat} {frame home : FrameId}
    {m : Machine} {x y : String} {v w : Value} (hlevels : 20 ≤ levels)
    (hequal : m.store.lookup? frame "=" = some (.builtin .equal home))
    (hx : m.store.lookup? frame x = some v) (hv : v.suspension? = none)
    (hy : m.store.lookup? frame y = some w) (hw : w.suspension? = none)
    (hdeep : Value.same? (roomOf (levels - 8)) w v = none) :
    evaluateWithin limits levels 0 (.list [.symbol "=", .symbol x, .symbol y] none) frame m =
      (.error .tooDeep, m) := by
  obtain ⟨levels, rfl⟩ := Nat.exists_eq_add_of_le' hlevels
  have hwritable :
      (Value.list [.symbol "=", .symbol x, .symbol y] none).IsWritable (roomOf (levels + 19)) := by
    refine ⟨?_, trivial, trivial, trivial, trivial⟩
    change 2 ≤ roomOf (levels + 19)
    unfold roomOf
    omega
  obtain ⟨text, htext⟩ := Value.exists_render_iff.2 hwritable
  have hvalues :
      (limits.level (levels + 12)).ValuesInTurn frame [.symbol x, .symbol y] m [v, w] m :=
    .cons (step_symbol_run (limits.level (levels + 11)) hx hv)
      (.cons (step_symbol_run (limits.level (levels + 11)) hy hw) (.nil m))
  have hrun : evaluateWithin limits (levels + 20) 0
      (.list [.symbol "=", .symbol x, .symbol y] none) frame m =
        (limits.level (levels + 12)).equal ⟨[.symbol x, .symbol y], frame, text⟩ m :=
    evaluateWithin_builtin_of_text .equal hequal htext
  have hgivesUp : Value.same? (limits.level (levels + 12)).room w v = none := hdeep
  rw [hrun, Level.equal_run, Level.allEqual_run hvalues, Value.allSame?, hgivesUp]
  rfl

/-- A form that compares a number with itself ends before that if the number has too many digits. -/
theorem evaluateWithin_equal_of_long {limits : Limits} {levels : Nat} {frame : FrameId}
    {m : Machine} {n : Int} (hlevels : 20 ≤ levels) (hlong : ¬ n.natAbs < Text.tooLongFrom) :
    evaluateWithin limits levels 0 (.list [.symbol "=", .number n, .number n] none) frame m =
      (.error .tooLong, m) := by
  obtain ⟨room, hroom⟩ : ∃ room, roomOf (levels - 1) = room + 2 := by
    refine Nat.exists_eq_add_of_le' ?_
    unfold roomOf
    omega
  have hsymbol : (Value.symbol "=").render (room + 1) = .ok "=" := by rw [Value.render]
  have hnone : (Value.list [.symbol "=", .number n, .number n] none).render (roomOf (levels - 1)) =
      .error .tooLong := by
    rw [hroom, Value.render, List.mapM_cons, hsymbol, List.mapM_cons, render_number_of_long hlong]
    rfl
  exact evaluateWithin_list_of_no_text limits hnone

/-- Two lists of one shape, made one after the other, that nest 3000 deep: they are equal, and yet
`=` gives up on them. Nor has it a value of two equal numbers with more digits than the limit: there
is no text of the form, so nothing of it is evaluated. -/
theorem equality_gives_up :
    let v := Value.tower 0 3000
    let w := Value.tower 3000 3000
    let m := { Machine.empty with
      store := Store.empty.global [("x", v), ("y", w)]
      nextId := (Registry.ofTowers 3000).made.length }
    let n := Value.number (powerOfTen 4300)
    ((Registry.ofTowers 3000).Holds m ∧ Value.AllEqual [v, w] ∧
        evaluate {} (.symbol "x") 0 m = (.ok v, m) ∧ evaluate {} (.symbol "y") 0 m = (.ok w, m) ∧
        evaluate {} (.list [.symbol "=", .symbol "x", .symbol "y"] none) 0 m =
          (.error .tooDeep, m)) ∧
      Value.AllEqual [n, n] ∧ evaluate {} n 0 m = (.ok n, m) ∧
        evaluate {} (.list [.symbol "=", n, n] none) 0 m = (.error .tooLong, m) := by
  intro v w m n
  obtain ⟨hv, -⟩ := Registry.ofTowers_has 3000 3000 le_rfl
  obtain ⟨-, hw⟩ := Registry.ofTowers_has 3000 3000 le_rfl
  have hm : (Registry.ofTowers 3000).Holds m :=
    Registry.holds_global (List.forall_mem_cons.2 ⟨hv, List.forall_mem_singleton.2 hw⟩)
  have hx : m.store.lookup? 0 "x" = some v := rfl
  have hy : m.store.lookup? 0 "y" = some w := rfl
  have hall : Value.AllEqual [v, w] := by
    refine (Value.allEqual_cons_iff (Registry.hasAll_cons.2
      ⟨hv, List.forall_mem_singleton.2 hw⟩)).2 (List.forall_mem_singleton.2 ?_)
    exact (Value.equal_iff_asRead_eq hw hv).2 (Value.asRead_tower 3000 0 3000)
  have hsuspension (first : Nat) : (Value.tower first 3000).suspension? = none := rfl
  refine ⟨⟨hm, hall, ?_, ?_, ?_⟩, ?_, rfl, ?_⟩
  · exact step_symbol_run (Limits.level {} 1399) hx (hsuspension 0)
  · exact step_symbol_run (Limits.level {} 1399) hy (hsuspension 3000)
  · exact evaluateWithin_equal_of_names (by decide) rfl hx (hsuspension 0) hy (hsuspension 3000)
      (Value.same?_tower (by decide) (by decide))
  · have hn : Registry.empty.Has n := Registry.has_number (powerOfTen 4300)
    refine (Value.allEqual_cons_iff (Registry.hasAll_cons.2
      ⟨hn, List.forall_mem_singleton.2 hn⟩)).2 (List.forall_mem_singleton.2 ?_)
    exact (Value.equal_iff_asRead_eq hn hn).2 rfl
  · have hlong : ¬ (powerOfTen 4300).natAbs < Text.tooLongFrom := by
      rw [natAbs_powerOfTen_lt_iff]
      decide
    exact evaluateWithin_equal_of_long (by decide) hlong

end Fexpr
