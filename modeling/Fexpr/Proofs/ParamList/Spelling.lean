import Mathlib.Data.List.Forall2
import Fexpr.Proofs.ParamList
import Fexpr.Proofs.Value.Room

/-!
# What spells a parameter list

Which trees spell parameters, told by the names in them alone: no item may be marked but the last
one, and without the marker no two names are the same. The parameters are those of the items in
order, and written out they are the tree again.

Main statement: `defun` accepts the trees that spell parameters and no others; where it fails it
evaluates nothing and changes nothing.
-/

namespace Fexpr

namespace Param

variable {name text : String} {suspended : Bool} {item tree : Value} {items : List Value}
  {names seen : List String} {p : Param} {params : List Param} {room : Nat}

/-! ## Marked names -/

/-- A name that asks for the remaining operands: it is longer than the marker and ends in it. -/
def IsMarked (name : String) : Prop :=
  restMarker.toList.length < name.toList.length ∧ restMarker.toList <:+ name.toList

instance : DecidablePred IsMarked := fun _ => inferInstanceAs (Decidable (_ ∧ _))

/-- A name without the marker at its end, if it is marked. -/
def unmarked (name : String) : String :=
  if IsMarked name then
    String.ofList (name.toList.take (name.toList.length - restMarker.toList.length))
  else name

theorem unmarked_of_not_isMarked (h : ¬ IsMarked name) : unmarked name = name :=
  if_neg h

theorem unmarked_append_marker (h : IsMarked name) : unmarked name ++ restMarker = name := by
  obtain ⟨base, hbase⟩ := h.2
  apply String.toList_injective
  rw [unmarked, if_pos h, String.toList_append, String.toList_ofList, ← hbase, List.length_append,
    Nat.add_sub_cancel, List.take_left]

theorem restName?_eq (name : String) :
    restName? name = if IsMarked name then some (unmarked name) else none := by
  have hmarked : (restMarker.toList.length < name.toList.length &&
      restMarker.toList.isSuffixOf name.toList) = true ↔ IsMarked name := by
    rw [Bool.and_eq_true, decide_eq_true_eq, List.isSuffixOf_iff_suffix, IsMarked]
  rw [restName?]
  by_cases h : IsMarked name
  · rw [if_pos (hmarked.2 h), if_pos h, unmarked, if_pos h]
  · rw [if_neg fun hand => h (hmarked.1 hand), if_neg h]

/-! ## Items -/

/-- A tree spells a parameter: it is a name, quoted if the parameter is suspended, and marked if the
parameter takes the remaining operands. -/
def IsSpelledBy (p : Param) (item : Value) : Prop :=
  ∃ name, (item = .symbol name ∧ p.suspended = false ∨
      item = .quote (.symbol name) ∧ p.suspended = true) ∧
    p.name = unmarked name ∧ p.rest = decide (IsMarked name)

theorem ofName_eq (name : String) (suspended : Bool) :
    ofTree?.ofName name suspended =
      { name := unmarked name, suspended, rest := decide (IsMarked name) } := by
  rw [ofTree?.ofName, restName?_eq]
  by_cases h : IsMarked name
  · rw [if_pos h, decide_eq_true h]
  · rw [if_neg h, decide_eq_false h, unmarked_of_not_isMarked h]

theorem ofTree?_eq_some_iff : ofTree? item = some p ↔ p.IsSpelledBy item := by
  constructor
  · intro h
    unfold ofTree? at h
    split at h
    · rw [ofName_eq] at h
      cases h
      exact ⟨_, Or.inl ⟨rfl, rfl⟩, rfl, rfl⟩
    · rw [ofName_eq] at h
      cases h
      exact ⟨_, Or.inr ⟨rfl, rfl⟩, rfl, rfl⟩
    · cases h
  · obtain ⟨pname, suspended, rest⟩ := p
    rintro ⟨name, ⟨rfl, rfl⟩ | ⟨rfl, rfl⟩, rfl, rfl⟩ <;> rw [ofTree?, ofName_eq]

/-- The text of a parameter is that of the item that spells it. -/
theorem IsSpelledBy.text_eq (h : p.IsSpelledBy item) (htext : item.render room = .ok text) :
    p.text = text := by
  obtain ⟨name, hitem, hname, hrest⟩ := h
  have hmarker : p.name ++ (if p.rest then restMarker else "") = name := by
    by_cases h : IsMarked name
    · rw [hname, hrest, decide_eq_true h, if_pos rfl, unmarked_append_marker h]
    · rw [hname, hrest, decide_eq_false h, unmarked_of_not_isMarked h]
      exact String.append_empty
  rw [Param.text, String.append_assoc, hmarker]
  rcases hitem with ⟨rfl, hsuspended⟩ | ⟨rfl, hsuspended⟩
  · cases room with
    | zero => cases htext
    | succ room =>
      rw [hsuspended]
      exact String.empty_append.trans (Except.ok.inj htext)
  · match room with
    | 0 | 1 => cases htext
    | room + 2 =>
      rw [hsuspended]
      exact Except.ok.inj htext

/-! ## Rows of items -/

/-- Items spell parameters, in order, if each spells its own and these make up a proper list without
the names seen before. -/
theorem ofTrees_eq_ok_iff : ofTrees seen items = .ok params ↔
    List.Forall₂ (fun item p => p.IsSpelledBy item) items params ∧ Proper params ∧
      ∀ p ∈ params, p.name ∉ seen := by
  constructor
  · intro h
    refine ⟨?_, proper_of_ofTrees h⟩
    induction items generalizing seen params with
    | nil =>
      cases h
      exact .nil
    | cons item items ih =>
      obtain ⟨p, ps, hitem, -, -, hothers, rfl⟩ := exists_of_ofTrees_cons h
      exact .cons (ofTree?_eq_some_iff.1 hitem) (ih hothers)
  · rintro ⟨hspelled, hproper, hnew⟩
    induction hspelled generalizing seen with
    | nil => rfl
    | @cons item p items ps hitem hitems ih =>
      have hlast : (p.rest && !items.isEmpty) = false := by
        cases hrest : p.rest with
        | false => rfl
        | true =>
          obtain rfl := hproper.eq_nil_of_rest hrest
          cases hitems
          rfl
      have hseen : seen.contains p.name = false := by
        simpa using hnew p List.mem_cons_self
      have hothers : ofTrees (p.name :: seen) items = .ok ps := by
        refine ih hproper.tail fun q hq hmem => ?_
        rcases List.mem_cons.1 hmem with hname | hmem
        · exact (List.nodup_cons.1 hproper.nodup).1 (List.mem_map.2 ⟨q, hq, hname⟩)
        · exact hnew q (List.mem_cons_of_mem p hq) hmem
      rw [ofTrees, ofTree?_eq_some_iff.2 hitem]
      dsimp only
      rw [hlast, hseen, hothers]
      rfl

/-- What is wrong with items is wrong with one of them. -/
theorem mem_of_ofTrees_eq_error {fault : ParamFault} (h : ofTrees seen items = .error fault) :
    (∃ item ∈ items, fault = .notAName item ∨ fault = .restNotLast item) ∨
      ∃ name, fault = .duplicate name := by
  induction items generalizing seen with
  | nil => cases h
  | cons item items ih =>
    rw [ofTrees] at h
    cases hitem : ofTree? item with
    | none =>
      rw [hitem] at h
      cases h
      exact Or.inl ⟨item, List.mem_cons_self, Or.inl rfl⟩
    | some p =>
      rw [hitem] at h
      dsimp only at h
      split at h
      · cases h
        exact Or.inl ⟨item, List.mem_cons_self, Or.inr rfl⟩
      · split at h
        · cases h
          exact Or.inr ⟨p.name, rfl⟩
        · cases hothers : ofTrees (p.name :: seen) items with
          | ok ps => rw [hothers] at h; cases h
          | error fault' =>
            rw [hothers] at h
            cases h
            rcases ih hothers with ⟨item', hmem, hfault⟩ | hdup
            · exact Or.inl ⟨item', List.mem_cons_of_mem item hmem, hfault⟩
            · exact Or.inr hdup

/-! ## Names -/

/-- Parameters go by names: they are called as these are without the marker, and take the rest where
these are marked. -/
def GoBy (params : List Param) (names : List String) : Prop :=
  params.map Param.name = names.map unmarked ∧
    params.map rest = names.map fun name => decide (IsMarked name)

theorem exists_goBy_of_spelled
    (h : List.Forall₂ (fun item p => p.IsSpelledBy item) items params) :
    ∃ names, items.map Value.targetName? = names.map some ∧ GoBy params names := by
  induction h with
  | nil => exact ⟨[], rfl, rfl, rfl⟩
  | cons hitem _ ih =>
    obtain ⟨names, hitems, hnames, hrest⟩ := ih
    obtain ⟨name, hname⟩ := hitem
    refine ⟨name :: names, ?_, ?_, ?_⟩
    · rw [List.map_cons, List.map_cons, hitems]
      rcases hname.1 with ⟨rfl, -⟩ | ⟨rfl, -⟩ <;> rfl
    · rw [List.map_cons, List.map_cons, hnames, hname.2.1]
    · rw [List.map_cons, List.map_cons, hrest, hname.2.2]

theorem exists_spelled_of_targetNames (h : items.map Value.targetName? = names.map some) :
    ∃ params, List.Forall₂ (fun item p => p.IsSpelledBy item) items params ∧
      GoBy params names := by
  induction names generalizing items with
  | nil =>
    obtain rfl := List.map_eq_nil_iff.1 h
    exact ⟨[], .nil, rfl, rfl⟩
  | cons name names ih =>
    obtain ⟨item, items, rfl, hitem, hitems⟩ := List.map_eq_cons_iff.1 h
    obtain ⟨params, hspelled, hnames, hrest⟩ := ih hitems
    have hp : ∃ suspended, IsSpelledBy ⟨unmarked name, suspended, decide (IsMarked name)⟩ item := by
      unfold Value.targetName? at hitem
      split at hitem
      · cases hitem
        exact ⟨false, name, Or.inl ⟨rfl, rfl⟩, rfl, rfl⟩
      · cases hitem
        exact ⟨true, name, Or.inr ⟨rfl, rfl⟩, rfl, rfl⟩
      · cases hitem
    obtain ⟨suspended, hp⟩ := hp
    exact ⟨_ :: params, .cons hp hspelled, by rw [List.map_cons, hnames, List.map_cons],
      by rw [List.map_cons, hrest, List.map_cons]⟩

/-- Names of which only the last may be marked, without its marker. -/
def bareNames (names : List String) : List String :=
  names.dropLast ++ names.getLast?.toList.map unmarked

/-- Where no name but the last is marked, to take the marker from the last is to take it from
all. -/
theorem bareNames_eq (h : ∀ name ∈ names.dropLast, ¬ IsMarked name) :
    bareNames names = names.map unmarked := by
  have hothers : names.dropLast = names.dropLast.map unmarked :=
    (List.map_id _).symm.trans <| List.map_congr_left fun name hname =>
      (unmarked_of_not_isMarked (h name hname)).symm
  have hsplit : names.dropLast ++ names.getLast?.toList = names := by
    cases names.eq_nil_or_concat with
    | inl hnil => subst hnil; rfl
    | inr hconcat =>
      obtain ⟨initial, last, rfl⟩ := hconcat
      simp
  rw [bareNames, hothers, ← List.map_append, hsplit]

theorem GoBy.proper_iff (h : GoBy params names) :
    Proper params ↔
      (∀ name ∈ names.dropLast, ¬ IsMarked name) ∧ (bareNames names).Nodup := by
  have hmarked : (∀ p ∈ params.dropLast, p.rest = false) ↔
      ∀ name ∈ names.dropLast, ¬ IsMarked name := by
    have hmap : params.dropLast.map rest =
        names.dropLast.map fun name => decide (IsMarked name) := by
      rw [List.map_dropLast, h.2, List.map_dropLast]
    have hforall := congrArg (∀ b ∈ ·, b = false) hmap
    simpa only [List.forall_mem_map, decide_eq_false_iff_not, eq_iff_iff] using hforall
  constructor
  · rintro ⟨hnodup, hlast⟩
    have hothers := hmarked.1 hlast
    rw [h.1, ← bareNames_eq hothers] at hnodup
    exact ⟨hothers, hnodup⟩
  · rintro ⟨hothers, hnodup⟩
    refine ⟨?_, hmarked.2 hothers⟩
    rwa [h.1, ← bareNames_eq hothers]

/-- A tree spells a parameter list: it is nil, or a list of names and quoted names of which none but
the last is marked, and which all differ once the last has lost its marker. -/
def SpellsList (tree : Value) : Prop :=
  tree = .nil ∨ ∃ items made names, tree = .list items made ∧
    items.map Value.targetName? = names.map some ∧
    (∀ name ∈ names.dropLast, ¬ IsMarked name) ∧ (bareNames names).Nodup

theorem exists_listOfTree_iff : (∃ params, listOfTree tree = .ok params) ↔ SpellsList tree := by
  constructor
  · rintro ⟨params, h⟩
    cases tree with
    | nil => exact Or.inl rfl
    | list items made =>
      obtain ⟨hspelled, hproper, -⟩ := ofTrees_eq_ok_iff.1 h
      obtain ⟨names, hitems, hnames⟩ := exists_goBy_of_spelled hspelled
      exact Or.inr ⟨items, made, names, rfl, hitems, hnames.proper_iff.1 hproper⟩
    | _ => cases h
  · rintro (rfl | ⟨items, made, names, rfl, hitems, hnames⟩)
    · exact ⟨[], rfl⟩
    · obtain ⟨params, hspelled, hgoBy⟩ := exists_spelled_of_targetNames hitems
      exact ⟨params, ofTrees_eq_ok_iff.2 ⟨hspelled, hgoBy.proper_iff.2 hnames, fun _ _ => nofun⟩⟩

/-! ## The list written out -/

/-- Items that have texts have those of the parameters that they spell. -/
theorem map_text_of_spelled {texts : List String}
    (h : List.Forall₂ (fun item p => p.IsSpelledBy item) items params)
    (htexts : items.mapM (Value.render room) = .ok texts) : params.map Param.text = texts := by
  induction h generalizing texts with
  | nil =>
    cases htexts
    rfl
  | @cons item p items ps hitem _ ih =>
    rw [List.mapM_cons] at htexts
    cases hfirst : item.render room with
    | error fault => rw [hfirst] at htexts; cases htexts
    | ok first =>
      rw [hfirst] at htexts
      cases hothers : items.mapM (Value.render room) with
      | error fault => rw [hothers] at htexts; cases htexts
      | ok others =>
        rw [hothers] at htexts
        cases htexts
        rw [List.map_cons, hitem.text_eq hfirst, ih hothers]

/-- The parameters of a list, written out, are the text of the list. -/
theorem text_of_ofTrees {made : Option Nat} (h : ofTrees [] items = .ok params)
    (htext : (Value.list items made).render room = .ok text) :
    "(" ++ " ".intercalate (params.map Param.text) ++ ")" = text := by
  cases room with
  | zero => cases htext
  | succ room =>
    rw [Value.render] at htext
    cases htexts : items.mapM (Value.render room) with
    | error fault => rw [htexts] at htext; cases htext
    | ok texts =>
      rw [htexts] at htext
      rw [map_text_of_spelled (ofTrees_eq_ok_iff.1 h).1 htexts]
      exact Except.ok.inj htext

/-- The parameters that take one operand each and the one for the rest are all there are. -/
theorem Proper.required_append_rest? (h : Proper params) :
    required params ++ (rest? params).toList = params := by
  induction params with
  | nil => rfl
  | cons p ps ih =>
    cases hp : p.rest with
    | false => rw [required_cons hp, rest?_cons hp, List.cons_append, ih h.tail]
    | true =>
      obtain rfl := h.eq_nil_of_rest hp
      simp [required, rest?, hp]

end Param

namespace Level

variable {lv : Level} {c : Call} {m : Machine} {tree v : Value} {text : String}
  {params : List Param}

/-- `defun` fails as malformed, whatever an evaluation would do, and leaves the machine as it is. -/
def RejectsDefun (lv : Level) (c : Call) (m : Machine) : Prop :=
  ∃ cause : Cause, cause.kind = .malformed ∧ ∀ below,
    { lv with below : Level }.defun c m = (.error (.error (.arising cause c.text)), m)

theorem complaint_run {α : Type} (h : v.render lv.room = .ok text) (cause : String → Cause) :
    (lv.write v >>= fun text => (c.fail (cause text) : Eval α)) m =
      (.error (.error (.arising (cause text) c.text)), m) := by
  rw [Eval.bind_run, write_run h]
  rfl

theorem params_run (h : Param.listOfTree tree = .ok params) :
    lv.params c tree m = (.ok params, m) := by
  unfold Level.params
  rw [h]
  rfl

/-- Where a list can be written, so can its items. -/
theorem exists_render_of_mem {items : List Value} {made : Option Nat} {item : Value} {room : Nat}
    (htext : (Value.list items made).render room = .ok text) (hitem : item ∈ items) :
    ∃ text, item.render room = .ok text := by
  obtain ⟨hheight, hnumerals⟩ := Value.exists_render_iff.1 ⟨text, htext⟩
  rw [Value.height] at hheight
  exact Value.exists_render_iff.2
    ⟨Value.heightOfAll_le_iff.1 (Nat.le_of_succ_le hheight) item hitem,
      Value.allHaveShortNumerals_iff.1 hnumerals item hitem⟩

/-- What spells no parameter list, and can be written, is malformed. -/
theorem exists_params_malformed (htext : tree.render lv.room = .ok text)
    (h : ¬ Param.SpellsList tree) :
    ∃ cause : Cause, cause.kind = .malformed ∧
      ∀ below, { lv with below : Level }.params c tree m =
        (.error (.error (.arising cause c.text)), m) := by
  have hroom (below : Nat → Value → FrameId → Eval Value) :
      { lv with below : Level }.room = lv.room := rfl
  cases hfault : Param.listOfTree tree with
  | ok params => exact absurd (Param.exists_listOfTree_iff.1 ⟨params, hfault⟩) h
  | error fault =>
    cases tree with
    | nil => cases hfault
    | list items made =>
      rcases Param.mem_of_ofTrees_eq_error hfault with ⟨item, hitem, rfl | rfl⟩ | ⟨name, rfl⟩
      · obtain ⟨itemText, hitem⟩ := exists_render_of_mem htext hitem
        refine ⟨.param itemText, rfl, fun below => ?_⟩
        unfold Level.params
        rw [hfault]
        exact complaint_run ((hroom below).symm ▸ hitem) .param
      · obtain ⟨itemText, hitem⟩ := exists_render_of_mem htext hitem
        refine ⟨.restNotLast itemText, rfl, fun below => ?_⟩
        unfold Level.params
        rw [hfault]
        exact complaint_run ((hroom below).symm ▸ hitem) .restNotLast
      · refine ⟨.duplicateParam name, rfl, fun below => ?_⟩
        unfold Level.params
        rw [hfault]
        rfl
    | _ =>
      cases hfault
      exact ⟨.paramList text, rfl, fun below =>
        complaint_run ((hroom below).symm ▸ htext) .paramList⟩

/-! ## Definitions -/

section

variable {nameTree e : Value} {body : List Value} {name : String}

/-- With a name and a parameter list, `defun` makes a fexpr and binds it to the name. -/
theorem defun_run (hoperands : c.operands = nameTree :: tree :: e :: body)
    (hname : nameTree.targetName? = some name) (hparams : Param.listOfTree tree = .ok params) :
    let fexpr := Value.fexpr m.nextId name params (e :: body) c.frame
    lv.defun c m = (.ok fexpr, { m with
      nextId := m.nextId + 1
      store := m.store.define c.frame name fexpr }) := by
  intro fexpr
  unfold Level.defun
  rw [hoperands]
  dsimp only
  rw [hname]
  dsimp only
  rw [Eval.bind_run, params_run hparams]
  rfl

theorem rejectsDefun_of_params (htext : tree.render lv.room = .ok text)
    (hoperands : c.operands = nameTree :: tree :: e :: body)
    (hname : nameTree.targetName? = some name) (h : ¬ Param.SpellsList tree) :
    lv.RejectsDefun c m := by
  obtain ⟨cause, hkind, hparams⟩ := exists_params_malformed (c := c) (m := m) htext h
  refine ⟨cause, hkind, fun below => ?_⟩
  unfold Level.defun
  rw [hoperands]
  dsimp only
  rw [hname]
  dsimp only
  rw [Eval.bind_run, hparams]

theorem rejectsDefun_of_operands (h : c.operands.length < 3) : lv.RejectsDefun c m := by
  refine ⟨.operandCount .defun, rfl, fun below => ?_⟩
  unfold Level.defun
  match hoperands : c.operands with
  | _ :: _ :: _ :: _ =>
    rw [hoperands] at h
    simp only [List.length_cons] at h
    omega
  | [] | [_] | [_, _] => rfl

theorem rejectsDefun_of_name (hoperands : c.operands = nameTree :: tree :: e :: body)
    (hname : nameTree.targetName? = none)
    (htext : (defun.unquoted nameTree).render lv.room = .ok text) : lv.RejectsDefun c m := by
  refine ⟨.definedName text, rfl, fun below => ?_⟩
  unfold Level.defun
  rw [hoperands]
  dsimp only
  rw [hname]
  have hbelow : (defun.unquoted nameTree).render ({ lv with below } : Level).room = .ok text :=
    htext
  exact complaint_run hbelow .definedName

/-- Where the name is none, `defun` fails even if that cannot be said of it in words. -/
theorem exists_defun_fault_of_name (hoperands : c.operands = nameTree :: tree :: e :: body)
    (hname : nameTree.targetName? = none) : ∃ fault, lv.defun c m = (.error fault, m) := by
  unfold Level.defun
  rw [hoperands]
  dsimp only
  rw [hname]
  exact exists_complaint lv c .definedName _ m

end

/-- Of the trees that can be written, `defun` takes those for parameters that spell a parameter
list. The parameters are those that the items spell, in order, of which only the last may take the
rest, and their texts are the text of the list; what they make is a fexpr with just these. Anything
else, too few operands, or something else than a name before the parameters is malformed, and
then nothing is evaluated and nothing changed. -/
theorem defun_takes_parameter_lists (lv : Level) (c : Call) (m : Machine) {tree : Value}
    {text : String} (htext : tree.render lv.room = .ok text) :
    ((∃ params, lv.params c tree m = (.ok params, m)) ↔ Param.SpellsList tree) ∧
    (∀ params m', lv.params c tree m = (.ok params, m') →
      m' = m ∧ (tree = .nil → params = []) ∧
      (∀ items made, tree = .list items made →
        List.Forall₂ (fun item p => p.IsSpelledBy item) items params ∧
        "(" ++ " ".intercalate (params.map Param.text) ++ ")" = text) ∧
      (∀ p ∈ params.dropLast, p.rest = false) ∧
      Param.required params ++ (Param.rest? params).toList = params ∧
      ∀ nameTree name e body, c.operands = nameTree :: tree :: e :: body →
        nameTree.targetName? = some name →
        let fexpr := Value.fexpr m.nextId name params (e :: body) c.frame
        lv.defun c m = (.ok fexpr, { m with
          nextId := m.nextId + 1
          store := m.store.define c.frame name fexpr })) ∧
    (∀ nameTree name e body, c.operands = nameTree :: tree :: e :: body →
      nameTree.targetName? = some name → ¬ Param.SpellsList tree → lv.RejectsDefun c m) ∧
    (c.operands.length < 3 → lv.RejectsDefun c m) ∧
    ∀ nameTree e body, c.operands = nameTree :: tree :: e :: body → nameTree.targetName? = none →
      (∃ fault, lv.defun c m = (.error fault, m)) ∧
      ∀ nameText, (defun.unquoted nameTree).render lv.room = .ok nameText →
        lv.RejectsDefun c m := by
  refine ⟨?_, ?_, ?_, rejectsDefun_of_operands, ?_⟩
  · rw [← Param.exists_listOfTree_iff]
    constructor
    · rintro ⟨params, hparams⟩
      exact ⟨params, listOfTree_of_params hparams⟩
    · rintro ⟨params, hparams⟩
      exact ⟨params, params_run hparams⟩
  · intro params m' hrun
    have hparams := listOfTree_of_params hrun
    have hproper := Param.proper_of_listOfTree hparams
    refine ⟨?_, ?_, ?_, hproper.rest_last, hproper.required_append_rest?,
      fun _ _ _ _ hoperands hname => defun_run hoperands hname hparams⟩
    · rw [params_run hparams] at hrun
      exact (congrArg Prod.snd hrun).symm
    · rintro rfl
      exact (Except.ok.inj hparams).symm
    · rintro items made rfl
      exact ⟨(Param.ofTrees_eq_ok_iff.1 hparams).1, Param.text_of_ofTrees hparams htext⟩
  · intro _ _ _ _ hoperands hname h
    exact rejectsDefun_of_params htext hoperands hname h
  · intro _ _ _ hoperands hname
    exact ⟨exists_defun_fault_of_name hoperands hname,
      fun _ hnameText => rejectsDefun_of_name hoperands hname hnameText⟩

/-- The list `(a 'b c...)` spells three parameters, of which the second is suspended and the third
takes the rest; the list `(a... b)` spells none, and `defun` rejects it. -/
theorem defun_takes_marked_last :
    let lv := Limits.level {} 100
    let good := Value.list [.symbol "a", .quote (.symbol "b"), .symbol "c..."] none
    let bad := Value.list [.symbol "a...", .symbol "b"] none
    let c : Call := { operands := [.symbol "f", bad, .symbol "a"], frame := 0, text := "" }
    good.render lv.room = .ok "(a 'b c...)" ∧ bad.render lv.room = .ok "(a... b)" ∧
    (∃ params, lv.params c good Machine.empty = (.ok params, Machine.empty) ∧
      params = [{ name := "a" }, { name := "b", suspended := true },
        { name := "c", rest := true }] ∧
      Param.required params ++ (Param.rest? params).toList = params) ∧
    lv.RejectsDefun c Machine.empty := by
  intro lv good bad c
  have hgood : good.render lv.room = .ok "(a 'b c...)" := by decide
  have hbad : bad.render lv.room = .ok "(a... b)" := by decide
  have hspells : Param.SpellsList good :=
    Or.inr ⟨_, _, ["a", "b", "c..."], rfl, rfl, by decide, by decide⟩
  have hnot : ¬ Param.SpellsList bad := by
    rw [← Param.exists_listOfTree_iff]
    rintro ⟨params, hparams⟩
    cases hparams
  obtain ⟨hiff, hsuccess, -⟩ := defun_takes_parameter_lists lv c Machine.empty hgood
  obtain ⟨-, -, hreject, -⟩ := defun_takes_parameter_lists lv c Machine.empty hbad
  obtain ⟨params, hparams⟩ := hiff.2 hspells
  refine ⟨hgood, hbad, ⟨params, hparams, ?_, (hsuccess params _ hparams).2.2.2.2.1⟩,
    hreject _ "f" _ _ rfl rfl hnot⟩
  have hlist : Param.listOfTree good = .ok params := listOfTree_of_params hparams
  exact (Except.ok.inj hlist).symm

end Level
end Fexpr
