import Mathlib.Data.List.Perm.Basic
import Transponder.Json.Value

/-!
# Values whose entries were put in another order

The entries of a JSON object have no order of their own: whoever passes a value on may write them in
another one. `Rearranged` relates two values that differ in nothing else, at any depth. A name that
occurs once is found again in a rearranged object, and what stands under it is rearranged in turn
(`Rearranged.finds`); a value can be looked at as a whole after it was rearranged if it could before
(`Rearranged.isRepresentable_eq`).
-/

namespace Transponder.Json

mutual

/-- The same value, with the entries of its objects in any order. -/
inductive Rearranged : Json → Json → Prop where
  | refl (j : Json) : Rearranged j j
  | array {js ks : List Json} (h : RearrangedItems js ks) : Rearranged (.array js) (.array ks)
  | object {es fs gs : List (String × Json)} (h : RearrangedEntries es fs) (hperm : fs.Perm gs) :
    Rearranged (.object es) (.object gs)

/-- Items in their order, each of them rearranged. -/
inductive RearrangedItems : List Json → List Json → Prop where
  | nil : RearrangedItems [] []
  | cons {j k : Json} {js ks : List Json} (h : Rearranged j k) (hrest : RearrangedItems js ks) :
    RearrangedItems (j :: js) (k :: ks)

/-- Entries in their order, the value of each of them rearranged. -/
inductive RearrangedEntries : List (String × Json) → List (String × Json) → Prop where
  | nil : RearrangedEntries [] []
  | cons {name : String} {j k : Json} {es fs : List (String × Json)} (h : Rearranged j k)
    (hrest : RearrangedEntries es fs) : RearrangedEntries ((name, j) :: es) ((name, k) :: fs)

end

variable {es fs gs : List (String × Json)} {name : String} {j k : Json}

/-! ## Values that can be looked at -/

theorem entriesRepresentable_eq_all (es : List (String × Json)) :
    entriesRepresentable es = es.all (·.2.isRepresentable) := by
  induction es with
  | nil => rfl
  | cons e es ih => rw [entriesRepresentable, ih, List.all_cons]

theorem entriesRepresentable_iff :
    entriesRepresentable es = true ↔ ∀ e ∈ es, e.2.isRepresentable = true := by
  rw [entriesRepresentable_eq_all, List.all_eq_true]

mutual

theorem Rearranged.isRepresentable_eq {j k : Json} :
    Rearranged j k → k.isRepresentable = j.isRepresentable
  | .refl _ => rfl
  | .array h => h.areRepresentable_eq
  | .object h hperm => by
    rw [isRepresentable, isRepresentable, ← h.entriesRepresentable_eq, entriesRepresentable_eq_all,
      entriesRepresentable_eq_all, hperm.all_eq]

theorem RearrangedItems.areRepresentable_eq {js ks : List Json} :
    RearrangedItems js ks → areRepresentable ks = areRepresentable js
  | .nil => rfl
  | .cons h hrest => by
    rw [areRepresentable, areRepresentable, h.isRepresentable_eq, hrest.areRepresentable_eq]

theorem RearrangedEntries.entriesRepresentable_eq {es fs : List (String × Json)} :
    RearrangedEntries es fs → entriesRepresentable fs = entriesRepresentable es
  | .nil => rfl
  | .cons h hrest => by
    rw [entriesRepresentable, entriesRepresentable, h.isRepresentable_eq,
      hrest.entriesRepresentable_eq]

end

/-! ## Entries under their names -/

theorem named_cons_self (name : String) (j : Json) (es : List (String × Json)) :
    named ((name, j) :: es) name = j :: named es name := by
  simp [named]

theorem named_cons_ne {other : String} (h : other ≠ name) (j : Json) (es : List (String × Json)) :
    named ((other, j) :: es) name = named es name := by
  simp [named, h]

theorem named_eq_nil (h : name ∉ es.map (·.1)) : named es name = [] := by
  rw [named, List.filterMap_eq_nil_iff]
  intro e he
  have hne : e.1 ≠ name := fun heq => h (List.mem_map.mpr ⟨e, he, heq⟩)
  exact if_neg hne

theorem named_filter_ne {tag : String} (h : name ≠ tag) (es : List (String × Json)) :
    named (es.filter (·.1 != tag)) name = named es name := by
  induction es with
  | nil => rfl
  | cons e es ih =>
    obtain ⟨other, j⟩ := e
    by_cases htag : other = tag
    · have hskip : ((other, j) :: es).filter (·.1 != tag) = es.filter (·.1 != tag) :=
        List.filter_cons_of_neg (by simp [htag])
      have hne : other ≠ name := fun heq => h (heq ▸ htag)
      rw [hskip, ih, named_cons_ne hne]
    · have hkeep : ((other, j) :: es).filter (·.1 != tag) =
          (other, j) :: es.filter (·.1 != tag) :=
        List.filter_cons_of_pos (by simp [htag])
      rw [hkeep]
      by_cases hname : other = name
      · subst hname
        rw [named_cons_self, named_cons_self, ih]
      · rw [named_cons_ne hname, named_cons_ne hname, ih]

/-- Each of some entries is found under its name, which occurs once, as a rearranged value. -/
def Finds (gs es : List (String × Json)) : Prop :=
  ∀ e ∈ es, ∃ k, named gs e.1 = [k] ∧ Rearranged e.2 k

theorem RearrangedEntries.refl (es : List (String × Json)) : RearrangedEntries es es := by
  induction es with
  | nil => exact .nil
  | cons e es ih => exact .cons (.refl e.2) ih

theorem RearrangedEntries.map_fst :
    ∀ {es fs : List (String × Json)}, RearrangedEntries es fs → fs.map (·.1) = es.map (·.1)
  | _, _, .nil => rfl
  | _, _, .cons _ hrest => by rw [List.map_cons, List.map_cons, hrest.map_fst]

theorem RearrangedEntries.finds : ∀ {es fs : List (String × Json)}, RearrangedEntries es fs →
    (es.map (·.1)).Nodup → Finds fs es
  | _, _, .nil, _ => fun _ he => absurd he List.not_mem_nil
  | (name, _) :: _, (_, k) :: _, .cons h hrest, hnodup => by
    obtain ⟨hfresh, hnodup⟩ := List.nodup_cons.mp hnodup
    intro e he
    rcases List.mem_cons.mp he with rfl | he
    · refine ⟨k, ?_, h⟩
      rw [named_cons_self, named_eq_nil (by rw [hrest.map_fst]; exact hfresh)]
    · obtain ⟨l, hl, hrearranged⟩ := hrest.finds hnodup e he
      have hne : name ≠ e.1 := fun heq => hfresh (heq ▸ List.mem_map.mpr ⟨e, he, rfl⟩)
      exact ⟨l, by rw [named_cons_ne hne, hl], hrearranged⟩

theorem Finds.of_perm (h : Finds fs es) (hperm : fs.Perm gs) : Finds gs es := by
  intro e he
  obtain ⟨k, hk, hrearranged⟩ := h e he
  have hnamed : (named fs e.1).Perm (named gs e.1) := hperm.filterMap _
  rw [hk] at hnamed
  exact ⟨k, List.singleton_perm.mp hnamed |>.symm, hrearranged⟩

/-- A rearranged object has the entries under their names. -/
theorem Rearranged.finds (h : Rearranged (.object es) j) (hnodup : (es.map (·.1)).Nodup) :
    ∃ gs, j = .object gs ∧ Finds gs es := by
  cases h with
  | refl => exact ⟨es, rfl, (RearrangedEntries.refl es).finds hnodup⟩
  | object h hperm => exact ⟨_, rfl, (h.finds hnodup).of_perm hperm⟩

end Transponder.Json
