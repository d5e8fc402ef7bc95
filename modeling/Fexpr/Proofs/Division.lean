import Mathlib.Algebra.BigOperators.Group.List.Basic
import Mathlib.Algebra.BigOperators.Ring.List
import Mathlib.Data.Int.Order.Basic
import Fexpr.Proofs.Depth
import Fexpr.Proofs.Operands

/-!
# Division

A number is divided by others from left to right, and every quotient on the way is rounded toward
zero. This is to divide once, by the product of the divisors
(`Arithmetic.quotient?_of_not_mem`), because a quotient keeps no more of the sign of what was
divided than the rounding needs.

Main statement: what a form that divides ends in (`division_by_product`).
-/

namespace Fexpr

/-! ## Quotients -/

namespace Arithmetic

/-- The quotient of the sizes, with the sign of the exact quotient, is the exact one rounded toward
zero. -/
theorem dividedBy_eq_tdiv (n d : Int) : dividedBy n d = n.tdiv d := by
  have hnonneg (k : Nat) : ¬ Int.ofNat k < 0 := Int.not_lt.2 (Int.natCast_nonneg k)
  unfold dividedBy
  cases n with
  | ofNat n =>
    cases d with
    | ofNat d =>
      rw [if_pos (iff_of_false (hnonneg n) (hnonneg d))]
      rfl
    | negSucc d =>
      rw [if_neg fun h => hnonneg n (h.2 (Int.negSucc_lt_zero d))]
      rfl
  | negSucc n =>
    cases d with
    | ofNat d =>
      rw [if_neg fun h => hnonneg d (h.1 (Int.negSucc_lt_zero n))]
      rfl
    | negSucc d =>
      rw [if_pos (iff_of_true (Int.negSucc_lt_zero n) (Int.negSucc_lt_zero d))]
      rfl

/-- To round twice toward zero is to round once. -/
theorem tdiv_tdiv (n d e : Int) : (n.tdiv d).tdiv e = n.tdiv (d * e) := by
  -- The signs come out of both sides alike, and what is left is division of natural numbers.
  obtain ⟨n, rfl | rfl⟩ := n.eq_nat_or_neg <;>
    obtain ⟨d, rfl | rfl⟩ := d.eq_nat_or_neg <;>
    obtain ⟨e, rfl | rfl⟩ := e.eq_nat_or_neg <;>
    simp only [Int.neg_tdiv, Int.tdiv_neg, Int.neg_mul, Int.mul_neg, Int.neg_neg,
      ← Int.natCast_mul, ← Int.ofNat_tdiv, Nat.div_div_eq_div_mul]

/-- To divide by one number after the other is to divide by their product. -/
theorem quotient?_of_not_mem {ds : List Int} (h : 0 ∉ ds) (n : Int) :
    quotient? n ds = some (n.tdiv ds.prod) := by
  induction ds generalizing n with
  | nil => rw [quotient?, List.prod_nil, Int.tdiv_one]
  | cons d ds ih =>
    have hd : d ≠ 0 := fun hd => h (hd ▸ List.mem_cons_self)
    have hds : 0 ∉ ds := fun hmem => h (List.mem_cons_of_mem d hmem)
    rw [quotient?, if_neg hd, ih hds, dividedBy_eq_tdiv, tdiv_tdiv, List.prod_cons]

theorem product_eq_prod (ns : List Int) : product ns = ns.prod :=
  List.prod_eq_foldl.symm

end Arithmetic

/-! ## Forms -/

/-- What a number divided by others comes to, of which the product is given: a fault, if that is
zero. -/
def quotientOrFault (n product : Int) (text : String) : Except Fault Value :=
  if product = 0 then .error (.error (.arising .divisionByZero text))
  else .ok (.number (n.tdiv product))

theorem quotientOrFault_eq_fault_iff {n product : Int} {text : String} :
    quotientOrFault n product text = .error (.error (.arising .divisionByZero text)) ↔
      product = 0 := by
  unfold quotientOrFault
  by_cases h : product = 0
  · rw [if_pos h]
    exact iff_of_true rfl h
  · rw [if_neg h]
    exact iff_of_false nofun h

/-- The value of a quotient does not depend on the text of the form. -/
theorem quotientOrFault_eq_ok_iff {n product : Int} {text text' : String} {v : Value} :
    quotientOrFault n product text = .ok v ↔ quotientOrFault n product text' = .ok v := by
  unfold quotientOrFault
  by_cases h : product = 0
  · rw [if_pos h, if_pos h]
    exact iff_of_false nofun nofun
  · rw [if_neg h, if_neg h]

/-- The quotient and what remains add up to the number that was divided, and what remains is smaller
than the divisor and has the sign of the number. -/
theorem exists_quotient_remainder (n : Int) {product : Int} (h : product ≠ 0) (text : String) :
    ∃ q r, quotientOrFault n product text = .ok (.number q) ∧ n = q * product + r ∧
      r.natAbs < product.natAbs ∧ (r = 0 ∨ r.sign = n.sign) := by
  refine ⟨n.tdiv product, n.tmod product, if_neg h, ?_, ?_, ?_⟩
  · rw [Int.tdiv_mul_add_tmod]
  · rw [Int.natAbs_tmod]
    exact Nat.mod_lt _ (Int.natAbs_pos.2 h)
  · by_cases hr : n.tmod product = 0
    · exact Or.inl hr
    · right
      rw [Int.sign_tmod, if_neg fun hdvd => hr (Int.tmod_eq_zero_of_dvd hdvd)]

namespace Level

variable {limits : Limits} {frame : FrameId} {es : List Value} {m m' : Machine} {n : Int}
  {ns : List Int} {lv : Level} {c : Call}

/-- Expressions whose values are numbers are numbers with fewer levels too, unless one of them lacks
levels. -/
theorem NumbersInTurn.with_fewer_levels {a b : Nat} (hle : a ≤ b)
    (h : (limits.level b).NumbersInTurn frame es m ns m') :
    (limits.level a).NumbersInTurn frame es m ns m' ∨
      ∃ position m₁, (limits.level a).StopsAt frame es m position (.error .tooDeep) m₁ := by
  induction es generalizing m ns with
  | nil =>
    obtain ⟨rfl, rfl⟩ := InTurn.ok_nil_iff.1 h
    exact Or.inl (.nil _)
  | cons e es ih =>
    obtain ⟨n, ns, m₁, rfl, hrun, hs⟩ := InTurn.ok_cons_iff.1 h
    have hvalue : (limits.level b).evaluate e frame m = (.ok (.number n), m₁) := hrun
    -- The first expression lacks levels, or else it is the same number and one after it may.
    rcases evaluateWithin_of_more_levels limits limits.levels hle 0 e frame m with hdeep | heq
    · exact Or.inr ⟨1, ((limits.level a).evaluate e frame m).2, [], e, es, [], m, rfl, rfl, .nil m,
        Prod.ext hdeep rfl, nofun⟩
    · have hfewer : (limits.level a).evaluate e frame m = (.ok (.number n), m₁) :=
        heq.trans hvalue
      rcases ih hs with hns | ⟨_, m₂, before, e', after, ns', m₃, rfl, rfl, hns, hstop⟩
      · exact Or.inl (.cons hfewer hns)
      · exact Or.inr ⟨_, m₂, e :: before, e', after, n :: ns', m₃, rfl, rfl, .cons hfewer hns,
          hstop⟩

/-- A division of numbers ends in the quotient by the product. -/
theorem divide_run (h : lv.NumbersInTurn c.frame c.operands m (n :: ns) m') :
    lv.applyBuiltin .divide c m = (quotientOrFault n ns.prod c.text, m') := by
  rw [applyBuiltin_run_of_numbers rfl h]
  unfold conclude quotientOrFault
  by_cases hzero : 0 ∈ ns
  · rw [show Builtin.divide.compute? n ns = none from Arithmetic.quotient?_eq_none_iff.2 hzero,
      if_pos (List.prod_eq_zero_iff.2 hzero)]
    rfl
  · rw [show Builtin.divide.compute? n ns = some (n.tdiv ns.prod) from
      Arithmetic.quotient?_of_not_mem hzero n, if_neg (List.prod_ne_zero hzero)]
    rfl

/-- A multiplication of numbers ends in the product. -/
theorem multiply_run (h : lv.NumbersInTurn c.frame c.operands m (n :: ns) m') :
    lv.applyBuiltin .multiply c m = (.ok (.number (n :: ns).prod), m') := by
  rw [applyBuiltin_run_of_numbers rfl h, ← Arithmetic.product_eq_prod]
  rfl

end Level

section

variable {limits : Limits} {levels : Nat} {frame home home' : FrameId} {m m₁ m' : Machine}
  {e : Value} {es : List Value} {made made' : Option Nat} {text : String} {n : Int} {ns : List Int}

/-- A form that divides numbers ends in the quotient by the product. -/
theorem evaluateWithin_division
    (hdivide : m.store.lookup? frame "/" = some (.builtin .divide home))
    (htext : (Value.list (.symbol "/" :: es) made).render (roomOf (levels - 1)) = .ok text)
    (hnumbers : (limits.level (levels - 7)).NumbersInTurn frame es m (n :: ns) m') :
    evaluateWithin limits levels 0 (.list (.symbol "/" :: es) made) frame m =
      (quotientOrFault n ns.prod text, m') :=
  (evaluateWithin_builtin_of_text .divide hdivide htext).trans (Level.divide_run hnumbers)

/-- A form that multiplies, and can be written on levels enough, is too deep for its levels, or
multiplies what its operands come to with more levels. -/
theorem evaluateWithin_multiplication (levels : Nat) {more : Nat}
    (hmultiply : m.store.lookup? frame "*" = some (.builtin .multiply home))
    (hshort : (Value.list (.symbol "*" :: es) made).HasShortNumerals)
    (hnumbers : (limits.level more).NumbersInTurn frame es m (n :: ns) m')
    (hle : levels - 7 ≤ more) :
    (evaluateWithin limits levels 0 (.list (.symbol "*" :: es) made) frame m).1 = .error .tooDeep ∨
      evaluateWithin limits levels 0 (.list (.symbol "*" :: es) made) frame m =
        (.ok (.number (n :: ns).prod), m') := by
  rcases Value.render_eq_tooDeep_or_ok hshort (roomOf (levels - 1)) with hdeep | ⟨text, htext⟩
  · rw [evaluateWithin_list_of_no_text limits hdeep]
    exact Or.inl rfl
  · have hrun : evaluateWithin limits levels 0 (.list (.symbol "*" :: es) made) frame m =
        (limits.level (levels - 7)).applyBuiltin .multiply ⟨es, frame, text⟩ m :=
      evaluateWithin_builtin_of_text .multiply hmultiply htext
    rw [hrun]
    rcases hnumbers.with_fewer_levels hle with hfewer | ⟨position, m₁, hstops⟩
    · exact Or.inr (Level.multiply_run hfewer)
    · have hop : Builtin.multiply.isArithmetic = true := rfl
      have hends := Level.applyBuiltin_run_of_stopsAt (c := ⟨es, frame, text⟩) hop hstops
      exact Or.inl (hends.2.1 _ rfl)

/-- A form that divides by a product of numbers is too deep for its levels, or ends in the quotient
by the product, as the form does that divides by one number after the other. -/
theorem evaluateWithin_division_by_product
    (hdivide : m.store.lookup? frame "/" = some (.builtin .divide home))
    (htext : (Value.list (.symbol "/" :: e :: es) made).render (roomOf (levels - 1)) = .ok text)
    (he : (limits.level (levels - 7)).evaluate e frame m = (.ok (.number n), m₁))
    (hmultiply : m₁.store.lookup? frame "*" = some (.builtin .multiply home'))
    (hes : es ≠ []) (hnumbers : (limits.level (levels - 7)).NumbersInTurn frame es m₁ ns m')
    (made₁ made₂ : Option Nat) :
    let nested := evaluateWithin limits levels 0
      (.list [.symbol "/", e, .list (.symbol "*" :: es) made₁] made₂) frame m
    nested.1 = .error .tooDeep ∨ ∃ text', nested = (quotientOrFault n ns.prod text', m') := by
  intro nested
  -- The nested form has the same numerals, so all that may be missing is room.
  have hshort : Value.AllHaveShortNumerals (e :: es) := (Value.exists_render_iff.1 ⟨_, htext⟩).2.2
  have hproduct : (Value.list (.symbol "*" :: es) made₁).HasShortNumerals := ⟨trivial, hshort.2⟩
  have hnested : (Value.list [.symbol "/", e, .list (.symbol "*" :: es) made₁]
      made₂).HasShortNumerals := ⟨trivial, hshort.1, hproduct, trivial⟩
  rcases Value.render_eq_tooDeep_or_ok hnested (roomOf (levels - 1)) with hdeep | ⟨text', htext'⟩
  · refine Or.inl ?_
    rw [show nested = _ from evaluateWithin_list_of_no_text limits hdeep]
    rfl
  obtain ⟨d, ds, rfl⟩ : ∃ d ds, ns = d :: ds := by
    cases ns with
    | nil => exact absurd (List.length_eq_zero_iff.1 hnumbers.length_eq.symm) hes
    | cons d ds => exact ⟨d, ds, rfl⟩
  rcases evaluateWithin_multiplication (levels - 7) hmultiply hproduct hnumbers
    (Nat.sub_le _ 7) with hdeep | hvalue
  · have hstops : (limits.level (levels - 7)).StopsAt frame [e, .list (.symbol "*" :: es) made₁] m 2
        (.error .tooDeep) _ :=
      ⟨[e], _, [], [n], m₁, rfl, rfl, .cons he (.nil m₁), Prod.ext hdeep rfl, nofun⟩
    have hop : Builtin.divide.isArithmetic = true := rfl
    have hrun : nested = (limits.level (levels - 7)).applyBuiltin .divide
        ⟨[e, .list (.symbol "*" :: es) made₁], frame, text'⟩ m :=
      evaluateWithin_builtin_of_text .divide hdivide htext'
    rw [hrun]
    exact Or.inl ((Level.applyBuiltin_run_of_stopsAt hop hstops).2.1 _ rfl)
  · have hboth : (limits.level (levels - 7)).NumbersInTurn frame
        [e, .list (.symbol "*" :: es) made₁] m [n, (d :: ds).prod] m' :=
      .cons he (.cons hvalue (.nil m'))
    refine Or.inr ⟨text', ?_⟩
    rw [show nested = _ from evaluateWithin_division hdivide htext' hboth, List.prod_singleton]

end

/-- A form divides a number `n` by others, all of them the values of its operands. It divides by
zero exactly if one of the others is zero, wherever that stands; and if not, its value is the
quotient of `n` by the product of the others, rounded toward zero. So any other form that divides
`n` by the same numbers in another order ends in the same way, as does a form that divides `n` by
their product, unless that one is too deep. -/
theorem division_by_product (limits : Limits) (levels : Nat) {frame home : FrameId} {m m' : Machine}
    {e : Value} {es : List Value} {made : Option Nat} {text : String} {n : Int} {ns : List Int}
    (hdivide : m.store.lookup? frame "/" = some (.builtin .divide home))
    (htext : (Value.list (.symbol "/" :: e :: es) made).render (roomOf (levels - 1)) = .ok text)
    (hnumbers : (limits.level (levels - 7)).NumbersInTurn frame (e :: es) m (n :: ns) m') :
    let run := evaluateWithin limits levels 0 (.list (.symbol "/" :: e :: es) made) frame m
    run.2 = m' ∧
    (run.1 = .error (.error (.arising .divisionByZero text)) ↔ 0 ∈ ns) ∧
    (0 ∉ ns → ∃ q r, run.1 = .ok (.number q) ∧ n = q * ns.prod + r ∧
      r.natAbs < ns.prod.natAbs ∧ (r = 0 ∨ r.sign = n.sign)) ∧
    (∀ {limits' levels' frame' home' m₁ m₁' es' made' text' ns'},
      m₁.store.lookup? frame' "/" = some (.builtin .divide home') →
      (Value.list (.symbol "/" :: es') made').render (roomOf (levels' - 1)) = .ok text' →
      (Limits.level limits' (levels' - 7)).NumbersInTurn frame' es' m₁ (n :: ns') m₁' →
      ns'.Perm ns →
      let run' := evaluateWithin limits' levels' 0 (.list (.symbol "/" :: es') made') frame' m₁
      (∀ v, run'.1 = .ok v ↔ run.1 = .ok v) ∧
        (run'.1 = .error (.error (.arising .divisionByZero text')) ↔ 0 ∈ ns)) ∧
    ∀ {home' m₁} (made₁ made₂),
      (limits.level (levels - 7)).evaluate e frame m = (.ok (.number n), m₁) →
      m₁.store.lookup? frame "*" = some (.builtin .multiply home') → es ≠ [] →
      let nested := evaluateWithin limits levels 0
        (.list [.symbol "/", e, .list (.symbol "*" :: es) made₁] made₂) frame m
      nested.1 = .error .tooDeep ∨
        nested.2 = m' ∧ (∀ v, nested.1 = .ok v ↔ run.1 = .ok v) ∧
          (0 ∈ ns → ∃ text', nested.1 = .error (.error (.arising .divisionByZero text'))) := by
  intro run
  have hrun : run = (quotientOrFault n ns.prod text, m') :=
    evaluateWithin_division hdivide htext hnumbers
  have hzero : ns.prod = 0 ↔ 0 ∈ ns := List.prod_eq_zero_iff
  rw [hrun]
  refine ⟨rfl, quotientOrFault_eq_fault_iff.trans hzero,
    fun h => exists_quotient_remainder n (List.prod_ne_zero h) text, ?_, ?_⟩
  · intro limits' levels' frame' home' m₁ m₁' es' made' text' ns' hdivide' htext' hnumbers' hperm
      run'
    have hrun' : run' = (quotientOrFault n ns.prod text', m₁') := by
      rw [← hperm.prod_eq]
      exact evaluateWithin_division hdivide' htext' hnumbers'
    rw [hrun']
    exact ⟨fun v => quotientOrFault_eq_ok_iff, quotientOrFault_eq_fault_iff.trans hzero⟩
  · intro home' m₁ made₁ made₂ he hmultiply hes nested
    obtain ⟨_, _, m₂, heq, hfirst, hrest⟩ := InTurn.ok_cons_iff.1 hnumbers
    cases heq
    cases he.symm.trans hfirst
    rcases evaluateWithin_division_by_product hdivide htext he hmultiply hes hrest made₁ made₂ with
      hdeep | ⟨text', hnested⟩
    · exact Or.inl hdeep
    · refine Or.inr ?_
      rw [show nested = _ from hnested]
      exact ⟨rfl, fun v => quotientOrFault_eq_ok_iff,
        fun h => ⟨text', quotientOrFault_eq_fault_iff.2 (hzero.2 h)⟩⟩

/-- Where `a` is -100 and `b` and `c` are 7 and -3, `(/ a b c)` is 4, and `(/ a (* b c))` too. -/
theorem division_by_seven_and_minus_three :
    let operands : List Value := [.symbol "a", .symbol "b", .symbol "c"]
    let m := { Machine.empty with
      store := Store.empty.global [("a", .number (-100)), ("b", .number 7), ("c", .number (-3))] }
    evaluateWithin {} 60 0 (.list (.symbol "/" :: operands) none) 0 m = (.ok (.number 4), m) ∧
      (evaluateWithin {} 60 0 (.list [.symbol "/", .symbol "a",
        .list [.symbol "*", .symbol "b", .symbol "c"] none] none) 0 m).1 = .ok (.number 4) := by
  intro operands m
  have hdivide : m.store.lookup? 0 "/" = some (.builtin .divide 0) := rfl
  have hnumbers : (Limits.level {} 53).NumbersInTurn 0 operands m [-100, 7, -3] m :=
    .cons rfl (.cons rfl (.cons rfl (.nil m)))
  have htext : (Value.list (.symbol "/" :: operands) none).render (roomOf 59) = .ok "(/ a b c)" :=
    rfl
  obtain ⟨hm, -, hquotient, -, hnested⟩ := division_by_product {} 60 hdivide htext hnumbers
  obtain ⟨q, r, hq, hsum, hsmall, hsign⟩ := hquotient (by decide)
  -- Four is the only number that leaves less than twenty-one, with the sign of -100.
  have hfour : q = 4 := by
    rw [show ([7, -3] : List Int).prod = -21 from rfl] at hsum hsmall
    rw [show (-100 : Int).sign = -1 from rfl, Int.sign_eq_neg_one_iff_neg] at hsign
    omega
  subst hfour
  have hvalue : (evaluateWithin {} 60 0 (.list (.symbol "/" :: operands) none) 0 m).1 =
    .ok (.number 4) := hq
  refine ⟨Prod.ext hvalue hm, ?_⟩
  rcases hnested none none rfl rfl (List.cons_ne_nil _ _) with hdeep | ⟨-, hsame, -⟩
  · cases hdeep
  · exact (hsame _).2 hq

end Fexpr
