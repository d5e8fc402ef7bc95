import Fexpr.Proofs.Value.Tree

/-!
# More room

A value has a text, and is compared, only as deep as there is room for. More room changes nothing
but that: a text or an answer that was there with less room is there with more, and is the same.

Beside the room it is only the size of integers that decides whether there is a text
(`Value.exists_render_iff`). Room as high as the values is enough for a text, if there is one, and
for an answer (`Value.render_ne_tooDeep`, `Value.allSame?_ne_none`).
-/

namespace Fexpr

/-- What is found with less room is found with more, unless the room was too small for it. -/
def Deepens {α : Type} (x y : Except TextFault α) : Prop :=
  x = .error .tooDeep ∨ x = y

namespace Deepens

variable {α β : Type}

theorem refl (x : Except TextFault α) : Deepens x x :=
  Or.inr rfl

theorem bind {x y : Except TextFault α} {f g : α → Except TextFault β} (h : Deepens x y)
    (hf : ∀ a, Deepens (f a) (g a)) : Deepens (x >>= f) (y >>= g) := by
  rcases h with rfl | rfl
  · exact Or.inl rfl
  · cases x with
    | error e => exact Or.inr rfl
    | ok a => exact hf a

theorem mapM {f g : Value → Except TextFault α} {items : List Value}
    (h : ∀ v ∈ items, Deepens (f v) (g v)) : Deepens (items.mapM f) (items.mapM g) := by
  induction items with
  | nil => exact refl _
  | cons v vs ih =>
    rw [List.mapM_cons, List.mapM_cons]
    refine bind (h v List.mem_cons_self) fun a => ?_
    exact bind (ih fun w hw => h w (List.mem_cons_of_mem v hw)) fun as => refl _

end Deepens

namespace Value

/-- More room changes no text. -/
theorem render_deepens {room room' : Nat} (hroom : room ≤ room') (v : Value) :
    Deepens (v.render room) (v.render room') := by
  induction v using induction_parts generalizing room room' with
  | step v ih =>
    cases room with
    | zero => exact Or.inl rfl
    | succ room =>
      -- There is a level of room on both sides; the parts share what is left of it.
      obtain ⟨room', rfl⟩ := Nat.exists_eq_add_of_lt (Nat.lt_of_lt_of_le room.succ_pos hroom)
      rw [Nat.zero_add] at hroom ⊢
      have hle : room ≤ room' := Nat.le_of_succ_le_succ hroom
      cases v with
      | list items made =>
        exact Deepens.bind (Deepens.mapM fun w hw => ih w hw hle) fun _ => Deepens.refl _
      | quote body | unquote body | suspended body =>
        exact Deepens.bind (ih body (List.mem_singleton.2 rfl) hle) fun _ => Deepens.refl _
      | _ => exact Or.inr (by simp only [render])

/-- More room changes no constructor call. -/
theorem constructorText_deepens {room room' : Nat} (hroom : room ≤ room') (v : Value) :
    Deepens (v.constructorText room) (v.constructorText room') := by
  induction v using induction_parts generalizing room room' with
  | step v ih =>
    cases room with
    | zero => exact Or.inl rfl
    | succ room =>
      obtain ⟨room', rfl⟩ := Nat.exists_eq_add_of_lt (Nat.lt_of_lt_of_le room.succ_pos hroom)
      rw [Nat.zero_add] at hroom ⊢
      have hle : room ≤ room' := Nat.le_of_succ_le_succ hroom
      cases v with
      | list items made =>
        exact Deepens.bind (Deepens.mapM fun w hw => ih w hw hle) fun _ => Deepens.refl _
      | quote body | unquote body | suspended body =>
        exact Deepens.bind (ih body (List.mem_singleton.2 rfl) hle) fun _ => Deepens.refl _
      | _ => exact Or.inr (by simp only [constructorText])

/-- A text is the same with any room that suffices for one. -/
theorem render_unique {room room' : Nat} {v : Value} {text text' : String}
    (h : v.render room = .ok text) (h' : v.render room' = .ok text') : text = text' := by
  rcases Nat.le_total room room' with hle | hle
  · rcases render_deepens hle v with hdeep | heq
    · rw [h] at hdeep; cases hdeep
    · rw [h, h'] at heq
      exact Except.ok.inj heq
  · rcases render_deepens hle v with hdeep | heq
    · rw [h'] at hdeep; cases hdeep
    · rw [h, h'] at heq
      exact (Except.ok.inj heq).symm

/-! ## When there is a text -/

mutual

/-- How many levels the text of a value has. A list without items takes one, as a name does. -/
def height : Value → Nat
  | .list items _ => heightOfAll items + 1
  | .quote body => height body + 1
  | .unquote body => height body + 1
  | .suspended e _ _ _ => height e + 1
  | _ => 1

/-- The height of the highest of several values. -/
def heightOfAll : List Value → Nat
  | [] => 0
  | v :: vs => max (height v) (heightOfAll vs)

end

mutual

/-- The integers in the text of a value have no more digits than the limit. -/
def HasShortNumerals : Value → Prop
  | .number n => n.natAbs < Text.tooLongFrom
  | .hostNumber n => n.natAbs < Text.tooLongFrom
  | .list items _ => AllHaveShortNumerals items
  | .quote body => HasShortNumerals body
  | .unquote body => HasShortNumerals body
  | .suspended e _ _ _ => HasShortNumerals e
  | _ => True

/-- The integers in the texts of values have no more digits than the limit. -/
def AllHaveShortNumerals : List Value → Prop
  | [] => True
  | v :: vs => HasShortNumerals v ∧ AllHaveShortNumerals vs

end

/-- A value that can be written in a room: its text is no higher, and its integers keep to the limit
of digits. -/
def IsWritable (room : Nat) (v : Value) : Prop :=
  v.height ≤ room ∧ v.HasShortNumerals

theorem height_pos (v : Value) : 0 < v.height := by
  cases v <;> simp [height]

theorem heightOfAll_le_iff {items : List Value} {n : Nat} :
    heightOfAll items ≤ n ↔ ∀ v ∈ items, v.height ≤ n := by
  induction items with
  | nil => simp [heightOfAll]
  | cons v vs ih => rw [heightOfAll, Nat.max_le, ih, List.forall_mem_cons]

theorem allHaveShortNumerals_iff {items : List Value} :
    AllHaveShortNumerals items ↔ ∀ v ∈ items, v.HasShortNumerals := by
  induction items with
  | nil => simp [AllHaveShortNumerals]
  | cons v vs ih => rw [AllHaveShortNumerals, ih, List.forall_mem_cons]

theorem exists_numeral_iff {n : Int} :
    (∃ text, numeral n = .ok text) ↔ n.natAbs < Text.tooLongFrom := by
  unfold numeral Text.integerText?
  by_cases h : n.natAbs < Text.tooLongFrom
  · rw [if_pos h]
    exact ⟨fun _ => h, fun _ => ⟨_, rfl⟩⟩
  · rw [if_neg h]
    exact ⟨fun ⟨_, hne⟩ => (nomatch hne), fun hlt => absurd hlt h⟩

/-- There are texts of all values exactly if there is one of each. -/
theorem exists_mapM_iff {f : Value → Except TextFault String} {items : List Value} :
    (∃ texts, items.mapM f = .ok texts) ↔ ∀ v ∈ items, ∃ text, f v = .ok text := by
  induction items with
  | nil => exact ⟨fun _ v hv => (nomatch hv), fun _ => ⟨[], rfl⟩⟩
  | cons v vs ih =>
    rw [List.forall_mem_cons, ← ih, List.mapM_cons]
    cases f v with
    | error fault => exact ⟨fun ⟨_, h⟩ => (nomatch h), fun ⟨⟨_, h⟩, _⟩ => (nomatch h)⟩
    | ok text =>
      cases vs.mapM f with
      | error fault => exact ⟨fun ⟨_, h⟩ => (nomatch h), fun ⟨_, ⟨_, h⟩⟩ => (nomatch h)⟩
      | ok texts => exact ⟨fun _ => ⟨⟨_, rfl⟩, ⟨_, rfl⟩⟩, fun _ => ⟨_, rfl⟩⟩

/-- What is made of a text is there exactly if the text is. -/
theorem exists_bind_pure_iff {α β : Type} {x : Except TextFault α} {f : α → β} :
    (∃ b, (x >>= fun a => pure (f a)) = .ok b) ↔ ∃ a, x = .ok a := by
  cases x with
  | error fault => exact ⟨fun ⟨_, h⟩ => (nomatch h), fun ⟨_, h⟩ => (nomatch h)⟩
  | ok a => exact ⟨fun _ => ⟨a, rfl⟩, fun _ => ⟨f a, rfl⟩⟩

/-- A value has a text exactly if it can be written. -/
theorem exists_render_iff {v : Value} {room : Nat} :
    (∃ text, v.render room = .ok text) ↔ v.IsWritable room := by
  unfold IsWritable
  induction v using induction_parts generalizing room with
  | step v ih =>
    cases room with
    | zero =>
      constructor
      · exact fun ⟨_, h⟩ => (nomatch h)
      · exact fun h => absurd h.1 (Nat.not_le.2 v.height_pos)
    | succ room =>
      cases v with
      | number n | hostNumber n =>
        simp only [render, height, HasShortNumerals, exists_numeral_iff]
        exact ⟨fun h => ⟨Nat.le_add_left 1 room, h⟩, fun h => h.2⟩
      -- Both conditions, on height and on integers, are conditions on each item.
      | list items made =>
        rw [height, HasShortNumerals, Nat.succ_le_succ_iff, heightOfAll_le_iff,
          allHaveShortNumerals_iff, ← forall₂_and, render, exists_bind_pure_iff, exists_mapM_iff]
        exact forall₂_congr fun w hw => ih w hw
      | quote body | unquote body | suspended body =>
        simp only [render, height, HasShortNumerals, Nat.succ_le_succ_iff, exists_bind_pure_iff]
        exact ih body (List.mem_singleton.2 rfl)
      | _ =>
        simp only [render, height, HasShortNumerals, and_true]
        exact ⟨fun _ => Nat.le_add_left 1 room, fun _ => ⟨_, rfl⟩⟩

/-- More room is enough for what less room is enough for. -/
theorem IsWritable.mono {v : Value} {room room' : Nat} (h : v.IsWritable room)
    (hle : room ≤ room') : v.IsWritable room' :=
  ⟨Nat.le_trans h.1 hle, h.2⟩

/-- A list can be written where its items can be written in a room that is smaller by one. -/
theorem isWritable_list_iff {items : List Value} {made : Option Nat} {room : Nat} :
    (list items made).IsWritable (room + 1) ↔ ∀ v ∈ items, v.IsWritable room := by
  unfold IsWritable
  rw [height, HasShortNumerals, Nat.succ_le_succ_iff, heightOfAll_le_iff, allHaveShortNumerals_iff,
    forall₂_and]

/-- No value can be written without room. -/
theorem not_isWritable_zero (v : Value) : ¬ v.IsWritable 0 :=
  fun h => Nat.not_le.2 v.height_pos h.1

/-- If it is not for its integers, a value lacks a text only for the lack of room. -/
theorem render_eq_tooDeep_or_ok {v : Value} (h : v.HasShortNumerals) (room : Nat) :
    v.render room = .error .tooDeep ∨ ∃ text, v.render room = .ok text := by
  have hmore : v.IsWritable (max room v.height) := ⟨Nat.le_max_right room v.height, h⟩
  obtain ⟨text, htext⟩ := exists_render_iff.2 hmore
  rcases render_deepens (Nat.le_max_left room v.height) v with hdeep | heq
  · exact Or.inl hdeep
  · exact Or.inr ⟨text, heq.trans htext⟩

/-! ## Comparison -/

/-- A comparison of items with less room gives up, or answers as it does with more. -/
theorem sameItems?_deepens {same same' : Value → Value → Option Bool}
    (h : ∀ v w, same v w = none ∨ same v w = same' v w) (xs ys : List Value) :
    sameItems? same xs ys = none ∨ sameItems? same xs ys = sameItems? same' xs ys := by
  induction xs generalizing ys with
  | nil => cases ys <;> exact Or.inr rfl
  | cons x xs ih =>
    cases ys with
    | nil => exact Or.inr rfl
    | cons y ys =>
      rw [sameItems?, sameItems?]
      rcases h x y with hnone | heq
      · rw [hnone]
        exact Or.inl rfl
      · rw [← heq]
        rcases same x y with _ | _ | _
        · exact Or.inl rfl
        · exact Or.inr rfl
        · exact ih ys

/-- A comparison with less room gives up, or answers as it does with more. -/
theorem same?_deepens {room room' : Nat} (hroom : room ≤ room') (v w : Value) :
    same? room v w = none ∨ same? room v w = same? room' v w := by
  induction room generalizing v w room' with
  | zero => exact Or.inl rfl
  | succ room ih =>
    obtain ⟨room', rfl⟩ := Nat.exists_eq_add_of_lt (Nat.lt_of_lt_of_le room.succ_pos hroom)
    rw [Nat.zero_add] at hroom ⊢
    have hle : room ≤ room' := Nat.le_of_succ_le_succ hroom
    cases v with
    | list xs made =>
      cases w with
      | list ys made' =>
        rw [same?, same?]
        split
        · exact Or.inr rfl
        · exact sameItems?_deepens (fun x y => ih hle x y) xs ys
      | _ => exact Or.inr rfl
    | quote a =>
      cases w with
      | quote b => exact ih hle a b
      | _ => exact Or.inr rfl
    | unquote a =>
      cases w with
      | unquote b => exact ih hle a b
      | _ => exact Or.inr rfl
    | _ => cases w <;> exact Or.inr rfl

/-- A comparison of all values with the first gives up with less room, or answers as with more. -/
theorem allSame?_deepens {room room' : Nat} (hroom : room ≤ room') (first : Value)
    (vs : List Value) :
    allSame? room first vs = none ∨ allSame? room first vs = allSame? room' first vs := by
  induction vs with
  | nil => exact Or.inr rfl
  | cons v vs ih =>
    rw [allSame?, allSame?]
    rcases same?_deepens hroom v first with hnone | heq
    · rw [hnone]
      exact Or.inl rfl
    · rw [← heq]
      rcases same? room v first with _ | _ | _
      · exact Or.inl rfl
      · exact Or.inr rfl
      · exact ih

/-! ## Enough room -/

theorem bind_ne_tooDeep {α β : Type} {x : Except TextFault α} {f : α → Except TextFault β}
    (hx : x ≠ .error .tooDeep) (hf : ∀ a, f a ≠ .error .tooDeep) :
    x >>= f ≠ .error .tooDeep := by
  cases x with
  | error fault => exact fun h => hx (congrArg Except.error (Except.error.inj h))
  | ok a => exact hf a

theorem mapM_ne_tooDeep {α : Type} {f : Value → Except TextFault α} {items : List Value}
    (h : ∀ v ∈ items, f v ≠ .error .tooDeep) : items.mapM f ≠ .error .tooDeep := by
  induction items with
  | nil => nofun
  | cons v vs ih =>
    rw [List.mapM_cons]
    refine bind_ne_tooDeep (h v List.mem_cons_self) fun a => ?_
    exact bind_ne_tooDeep (ih fun w hw => h w (List.mem_cons_of_mem v hw)) nofun

theorem numeral_ne_tooDeep (n : Int) : numeral n ≠ .error .tooDeep := by
  unfold numeral
  split <;> nofun

/-- A value that is not higher than the room does not lack a text for the lack of room. -/
theorem render_ne_tooDeep {room : Nat} {v : Value} (h : v.height ≤ room) :
    v.render room ≠ .error .tooDeep := by
  induction v using induction_parts generalizing room with
  | step v ih =>
    cases room with
    | zero => exact absurd v.height_pos (Nat.not_lt.2 h)
    | succ room =>
      cases v with
      | number n | hostNumber n => exact numeral_ne_tooDeep n
      | list items made =>
        have hitems := heightOfAll_le_iff.1 (Nat.le_of_succ_le_succ h)
        exact bind_ne_tooDeep (mapM_ne_tooDeep fun w hw => ih w hw (hitems w hw)) nofun
      | quote body | unquote body | suspended body =>
        have hbody : body.height ≤ room := Nat.le_of_succ_le_succ h
        exact bind_ne_tooDeep (ih body (List.mem_singleton.2 rfl) hbody) nofun
      | _ => nofun

/-- Nor does it lack a constructor call. -/
theorem constructorText_ne_tooDeep {room : Nat} {v : Value} (h : v.height ≤ room) :
    v.constructorText room ≠ .error .tooDeep := by
  induction v using induction_parts generalizing room with
  | step v ih =>
    cases room with
    | zero => exact absurd v.height_pos (Nat.not_lt.2 h)
    | succ room =>
      cases v with
      | number n => exact bind_ne_tooDeep (numeral_ne_tooDeep n) nofun
      | hostNumber n => exact numeral_ne_tooDeep n
      | list items made =>
        have hitems := heightOfAll_le_iff.1 (Nat.le_of_succ_le_succ h)
        exact bind_ne_tooDeep (mapM_ne_tooDeep fun w hw => ih w hw (hitems w hw)) nofun
      | quote body | unquote body | suspended body =>
        have hbody : body.height ≤ room := Nat.le_of_succ_le_succ h
        exact bind_ne_tooDeep (ih body (List.mem_singleton.2 rfl) hbody) nofun
      | _ => nofun

theorem sameItems?_ne_none {same : Value → Value → Option Bool} {xs ys : List Value}
    (h : ∀ x ∈ xs, ∀ y, same x y ≠ none) : sameItems? same xs ys ≠ none := by
  induction xs generalizing ys with
  | nil => cases ys <;> exact Option.some_ne_none _
  | cons x xs ih =>
    cases ys with
    | nil => exact Option.some_ne_none _
    | cons y ys =>
      rw [sameItems?]
      split
      · exact ih fun x' hx' => h x' (List.mem_cons_of_mem x hx')
      · exact h x List.mem_cons_self y

/-- A value that is not higher than the room is compared to the end. -/
theorem same?_ne_none {room : Nat} {v : Value} (h : v.height ≤ room) (w : Value) :
    same? room v w ≠ none := by
  induction v using induction_parts generalizing room w with
  | step v ih =>
    cases room with
    | zero => exact absurd v.height_pos (Nat.not_lt.2 h)
    | succ room =>
      cases v with
      | list xs made =>
        have hitems := heightOfAll_le_iff.1 (Nat.le_of_succ_le_succ h)
        cases w with
        | list ys made' =>
          rw [same?]
          split
          · exact Option.some_ne_none _
          · exact sameItems?_ne_none fun x hx y => ih x hx (hitems x hx) y
        | _ => exact Option.some_ne_none _
      | quote a =>
        cases w with
        | quote b => exact ih a (List.mem_singleton.2 rfl) (Nat.le_of_succ_le_succ h) b
        | _ => exact Option.some_ne_none _
      | unquote a =>
        cases w with
        | unquote b => exact ih a (List.mem_singleton.2 rfl) (Nat.le_of_succ_le_succ h) b
        | _ => exact Option.some_ne_none _
      | _ => cases w <;> exact Option.some_ne_none _

theorem allSame?_ne_none {room : Nat} {vs : List Value} (h : heightOfAll vs ≤ room)
    (first : Value) : allSame? room first vs ≠ none := by
  have hvs := heightOfAll_le_iff.1 h
  clear h
  induction vs with
  | nil => exact Option.some_ne_none _
  | cons v vs ih =>
    rw [allSame?]
    split
    · exact ih fun w hw => hvs w (List.mem_cons_of_mem v hw)
    · exact same?_ne_none (hvs v List.mem_cons_self) first

end Value
end Fexpr
