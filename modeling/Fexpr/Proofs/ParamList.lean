import Fexpr.Proofs.Steps

/-!
# Parameters that a tree spells

No two parameters of a list that was read from a tree share a name, and only the last one takes the
remaining operands (`Param.Proper`). So the parameters of every fexpr that a program makes are those
that take one operand each, and then the one for the rest, if there is one.
-/

namespace Fexpr

namespace Param

variable {p : Param} {params : List Param} {seen : List String} {items : List Value}

/-- The first of the trees spells a parameter with a new name, which takes the rest only if there
are no other trees; the others spell the other parameters. -/
theorem exists_of_ofTrees_cons {item : Value} (h : ofTrees seen (item :: items) = .ok params) :
    ∃ p ps, ofTree? item = some p ∧ (p.rest = true → items = []) ∧ p.name ∉ seen ∧
      ofTrees (p.name :: seen) items = .ok ps ∧ params = p :: ps := by
  rw [ofTrees] at h
  cases hitem : ofTree? item with
  | none => rw [hitem] at h; cases h
  | some p =>
    rw [hitem] at h
    dsimp only at h
    split at h
    · cases h
    next hrest =>
      split at h
      · cases h
      next hseen =>
        cases hothers : ofTrees (p.name :: seen) items with
        | error fault => rw [hothers] at h; cases h
        | ok ps =>
          rw [hothers] at h
          refine ⟨p, ps, rfl, fun hp => ?_, by simpa using hseen, hothers, (Except.ok.inj h).symm⟩
          simpa [hp] using hrest

/-- A parameter that takes one operand is one more of those. -/
theorem required_cons (hp : p.rest = false) (ps : List Param) :
    required (p :: ps) = p :: required ps :=
  List.filter_cons_of_pos (by simp [hp])

theorem rest?_cons (hp : p.rest = false) (ps : List Param) : rest? (p :: ps) = rest? ps := by
  cases ps with
  | nil => simp [rest?, hp]
  | cons q qs => rfl

/-- Parameters as a fexpr has them. -/
structure Proper (params : List Param) : Prop where
  /-- No two share a name. -/
  nodup : (params.map name).Nodup
  /-- Only the last one takes the rest. -/
  rest_last : ∀ p ∈ params.dropLast, p.rest = false

theorem Proper.tail (h : Proper (p :: params)) : Proper params where
  nodup := (List.nodup_cons.1 h.nodup).2
  rest_last q hq := by
    cases params with
    | nil => cases hq
    | cons p' ps => exact h.rest_last q (List.mem_cons_of_mem p hq)

/-- A parameter for the rest has none after it. -/
theorem Proper.eq_nil_of_rest (h : Proper (p :: params)) (hp : p.rest = true) : params = [] := by
  cases params with
  | nil => rfl
  | cons q qs => exact absurd ((h.rest_last p List.mem_cons_self).symm.trans hp) nofun

/-- There is no parameter for the rest just if every one takes one operand. -/
theorem Proper.rest?_eq_none_iff (h : Proper params) :
    rest? params = none ↔ ∀ p ∈ params, p.rest = false := by
  induction params with
  | nil => exact iff_of_true rfl nofun
  | cons p ps ih =>
    cases hp : p.rest with
    | true =>
      obtain rfl := h.eq_nil_of_rest hp
      exact iff_of_false (by simp [rest?, hp]) (by simp [hp])
    | false => rw [rest?_cons hp, ih h.tail, List.forall_mem_cons, and_iff_right hp]

theorem proper_of_ofTrees (h : ofTrees seen items = .ok params) :
    Proper params ∧ ∀ p ∈ params, p.name ∉ seen := by
  induction items generalizing seen params with
  | nil =>
    cases h
    exact ⟨⟨List.nodup_nil, nofun⟩, nofun⟩
  | cons item items ih =>
    obtain ⟨p, ps, -, hrest, hseen, hothers, rfl⟩ := exists_of_ofTrees_cons h
    obtain ⟨hproper, hnew⟩ := ih hothers
    have hp : p.name ∉ ps.map name := by
      intro hmem
      obtain ⟨q, hq, hname⟩ := List.mem_map.1 hmem
      exact hnew q hq (hname ▸ List.mem_cons_self)
    refine ⟨⟨List.nodup_cons.2 ⟨hp, hproper.nodup⟩, ?_⟩, ?_⟩
    · cases ps with
      | nil => exact nofun
      | cons q qs =>
        refine List.forall_mem_cons.2 ⟨?_, hproper.rest_last⟩
        refine Bool.eq_false_iff.2 fun hp => ?_
        obtain rfl := hrest hp
        cases hothers
    · exact List.forall_mem_cons.2 ⟨hseen, fun q hq hmem => hnew q hq (List.mem_cons_of_mem _ hmem)⟩

theorem proper_of_listOfTree {tree : Value} (h : listOfTree tree = .ok params) : Proper params := by
  cases tree with
  | nil =>
    cases h
    exact ⟨List.nodup_nil, nofun⟩
  | list items made => exact (proper_of_ofTrees h).1
  | _ => cases h

end Param

namespace Level

variable {lv : Level} {c : Call} {m m' : Machine} {params : List Param}

/-- What is no parameter list ends the definition. -/
theorem listOfTree_of_params {tree : Value} (h : lv.params c tree m = (.ok params, m')) :
    Param.listOfTree tree = .ok params := by
  unfold Level.params at h
  cases htree : Param.listOfTree tree with
  | ok params' =>
    rw [htree] at h
    cases h
    rfl
  | error fault =>
    rw [htree] at h
    cases fault with
    | duplicate name => cases h
    | notAList v | notAName v | restNotLast v =>
      obtain ⟨fault, hfault⟩ := exists_complaint lv c _ v m
      exact absurd (hfault.symm.trans h) nofun

/-- The fexprs that programs make have proper parameters. -/
theorem proper_of_defun {id : Nat} {x : String} {body : List Value} {home : FrameId}
    (h : (lv.defun c m).1 = .ok (.fexpr id x params body home)) : Param.Proper params := by
  unfold Level.defun at h
  match hoperands : c.operands with
  | nameTree :: paramTree :: e :: body' =>
    rw [hoperands] at h
    dsimp only at h
    cases hname : nameTree.targetName? with
    | some name =>
      rw [hname] at h
      dsimp only at h
      rw [Eval.bind_run] at h
      rcases hparams : lv.params c paramTree m with ⟨fault | params', m'⟩
      · rw [hparams] at h
        cases h
      · rw [hparams] at h
        cases h
        exact Param.proper_of_listOfTree (listOfTree_of_params hparams)
    | none =>
      rw [hname] at h
      obtain ⟨fault, hfault⟩ := exists_complaint lv c .definedName (defun.unquoted nameTree) m
      exact absurd ((congrArg Prod.fst hfault).symm.trans h) nofun
  | [] | [_] | [_, _] =>
    rw [hoperands] at h
    cases h

end Level
end Fexpr
