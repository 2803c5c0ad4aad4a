import Transponder.Proofs.Json.Rearranged
import Transponder.Schema.Part

/-!
# Schemas that keep a value

A schema keeps a value if whoever reads what it wrote gets the value back, met directly or kept until
a tag was known, and with the entries of all objects in any order (`Schema.Keeps`). What was written
must also be fit to be kept, so it holds nothing out of range. `Fields.Keeps` is the same for the
fields of a record: they are found by their names among any entries that have them. A record of
fields with names of their own keeps what its fields keep (`record_keeps`), and so do a value with
its tag inside (`tagged?_of_rearranged`) and one beside its label (`labelled?_of_rearranged`).
-/

namespace Transponder

open Json (Rearranged RearrangedItems Finds)

variable {σ α β : Type}

/-- A value is read back from what was written for it, and from every rearrangement of that. -/
structure Schema.Keeps (schema : Schema α) (a : α) : Prop where
  representable : (schema.write a).isRepresentable = true
  reads : ∀ r j, Rearranged (schema.write a) j → schema.readAs r j = some a

/-- A part is written under some names, and is read back wherever its entries are found. -/
structure Fields.Keeps (fs : Fields σ α) (names : List String) (s : σ) (a : α) : Prop where
  map_fst : (fs.entries s).map (·.1) = names
  representable : ∀ e ∈ fs.entries s, e.2.isRepresentable = true
  reads : ∀ r es, Finds es (fs.entries s) → fs.ofEntries r es = some a

namespace Fields.Keeps

variable {fs : Fields σ (α → β)} {gs : Fields σ α} {names names' : List String} {s : σ} {f : α → β}
  {a : α}

theorem map (h : gs.Keeps names s a) (f : α → β) : Fields.Keeps (f <$> gs) names s (f a) where
  map_fst := h.map_fst
  representable := h.representable
  reads r es hes := by
    show (gs.ofEntries r es).map f = _
    rw [h.reads r es hes]
    rfl

theorem seq (hf : fs.Keeps names s f) (ha : gs.Keeps names' s a) :
    Fields.Keeps (fs <*> gs) (names ++ names') s (f a) where
  map_fst := by
    show (fs.entries s ++ gs.entries s).map (·.1) = _
    rw [List.map_append, hf.map_fst, ha.map_fst]
  representable := List.forall_mem_append.mpr ⟨hf.representable, ha.representable⟩
  reads r es hes := by
    obtain ⟨hfs, hgs⟩ := List.forall_mem_append.mp hes
    show (fs.ofEntries r es >>= fun f => gs.ofEntries r es >>= fun a => some (f a)) = _
    rw [hf.reads r es hfs, ha.reads r es hgs]
    rfl

end Fields.Keeps

namespace Schema

variable {schema : Schema α} {a : α} {s : σ} {get : σ → α} {name : String}

theorem Keeps.field (h : schema.Keeps (get s)) :
    (field name schema get).Keeps [name] s (get s) where
  map_fst := rfl
  representable := List.forall_mem_singleton.mpr h.representable
  reads r es hes := by
    obtain ⟨j, hj, hrearranged⟩ := hes _ List.mem_cons_self
    have hnamed : Json.named es name = [j] := hj
    unfold Transponder.field
    dsimp only
    rw [hnamed]
    exact h.reads r j hrearranged

/-! ## Simple values -/

theorem bool_keeps (b : Bool) : bool.Keeps b where
  representable := rfl
  reads _ _ h := by
    cases h
    rfl

theorem string_keeps (s : String) : string.Keeps s where
  representable := rfl
  reads _ _ h := by
    cases h
    rfl

theorem natural_keeps {limit n : Nat} (h : n ≤ limit) : (natural limit).Keeps n where
  representable := rfl
  reads _ _ hj := by
    cases hj
    have hbounds : (0 : Int) ≤ n ∧ (n : Int) ≤ limit := ⟨by omega, by omega⟩
    exact if_pos hbounds

theorem word8_keeps (n : UInt8) : word8.Keeps n where
  representable := rfl
  reads r j h := by
    have hn : n.toNat ≤ 255 := Nat.le_of_lt_succ n.toNat_lt
    have hread := (natural_keeps hn).reads r j h
    show ((natural 255).readAs r j).map UInt8.ofNat = _
    rw [hread, Option.map_some, UInt8.ofNat_toNat]

theorem word16_keeps (n : UInt16) : word16.Keeps n where
  representable := rfl
  reads r j h := by
    have hn : n.toNat ≤ 65535 := Nat.le_of_lt_succ n.toNat_lt
    have hread := (natural_keeps hn).reads r j h
    show ((natural 65535).readAs r j).map UInt16.ofNat = _
    rw [hread, Option.map_some, UInt16.ofNat_toNat]

theorem word32_keeps (n : UInt32) : word32.Keeps n where
  representable := rfl
  reads r j h := by
    have hn : n.toNat ≤ 4294967295 := Nat.le_of_lt_succ n.toNat_lt
    have hread := (natural_keeps hn).reads r j h
    show ((natural 4294967295).readAs r j).map UInt32.ofNat = _
    rw [hread, Option.map_some, UInt32.ofNat_toNat]

theorem write_real {x : Binary64} (h : x.isFinite = true) : real.write x = .real x :=
  if_pos h

/-- Only a finite number has a form of its own; the others are written as nothing. -/
theorem real_keeps {x : Binary64} (h : x.isFinite = true) : real.Keeps x := by
  refine ⟨by rw [write_real h]; rfl, fun r j hj => ?_⟩
  rw [write_real h] at hj
  cases hj
  rfl

theorem coded_keeps [Coded α] (h : Coded.ofLabel? (Coded.label a) = some a) :
    (coded : Schema α).Keeps a where
  representable := rfl
  reads _ _ hj := by
    cases hj
    exact h

theorem status_keeps (s : NavigationStatus) : coded.Keeps s :=
  coded_keeps (by cases s <;> rfl)

theorem device_keeps (d : PositionDevice) : coded.Keeps d :=
  coded_keeps (by cases d <;> rfl)

theorem maneuver_keeps (m : Maneuver) : coded.Keeps m :=
  coded_keeps (by cases m <;> rfl)

/-! ## Values of other values -/

theorem none_keeps : (optional schema).Keeps none where
  representable := rfl
  reads _ _ h := by
    cases h
    rfl

/-- A value that is there must not look like one that is missing. -/
theorem some_keeps (h : schema.Keeps a) (hwrite : ∀ j, Rearranged (schema.write a) j → j ≠ .null) :
    (optional schema).Keeps (some a) where
  representable := h.representable
  reads r j hj := by
    have hread := h.reads r j hj
    have hne := hwrite j hj
    unfold optional
    dsimp only
    split
    · exact absurd rfl hne
    · rw [hread, Option.map_some]

theorem optional_keeps {a : Option α} (h : ∀ b, schema.Keeps b)
    (hwrite : ∀ b j, Rearranged (schema.write b) j → j ≠ .null) : (optional schema).Keeps a := by
  cases a with
  | none => exact none_keeps
  | some b => exact some_keeps (h b) (hwrite b)

theorem list_keeps {as : List α} (h : ∀ a, schema.Keeps a) : (list schema).Keeps as where
  representable := by
    show Json.areRepresentable (as.map schema.write) = true
    induction as with
    | nil => rfl
    | cons a as ih => rw [List.map_cons, Json.areRepresentable, (h a).representable, ih]; rfl
  reads r j hj := by
    have hitems : ∀ (as : List α) (js : List Json), RearrangedItems (as.map schema.write) js →
        js.mapM (schema.readAs r) = some as := by
      intro as
      induction as with
      | nil =>
        intro js hjs
        cases hjs
        rfl
      | cons a as ih =>
        intro js hjs
        cases hjs with
        | cons hhead hrest =>
          rw [List.mapM_cons, (h a).reads r _ hhead, ih _ hrest]
          rfl
    have hrefl : ∀ js : List Json, RearrangedItems js js := by
      intro js
      induction js with
      | nil => exact .nil
      | cons j js ih => exact .cons (.refl j) ih
    have hwrite : (list schema).write as = .array (as.map schema.write) := rfl
    rw [hwrite] at hj
    cases hj with
    | refl => exact hitems as _ (hrefl _)
    | array hjs => exact hitems as _ hjs

/-! ## Records -/

theorem representable_entries {es : List (String × Json)}
    (h : ∀ e ∈ es, e.2.isRepresentable = true) : (Json.object es).isRepresentable = true :=
  Json.entriesRepresentable_iff.mpr h

theorem record_keeps {fs : Fields α α} {names : List String} (h : fs.Keeps names a a)
    (hnames : names.Nodup) : (record fs).Keeps a where
  representable := representable_entries h.representable
  reads r j hj := by
    obtain ⟨es, rfl, hes⟩ := hj.finds (h.map_fst ▸ hnames)
    exact h.reads r es hes

theorem object_keeps {fs : Fields α α} {names : List String} (h : fs.Keeps names a a)
    (hnames : names.Nodup) : (object fs).Keeps a where
  representable := representable_entries h.representable
  reads r j hj := by
    obtain ⟨es, rfl, hes⟩ := hj.finds (h.map_fst ▸ hnames)
    exact h.reads r es hes

theorem ne_null_of_object {es : List (String × Json)} {j : Json} (h : Rearranged (.object es) j) :
    j ≠ .null := by
  rintro rfl
  cases h

end Schema

/-! ## Tags -/

namespace Json

variable {es : List (String × Json)} {tag name : String} {j v : Json}

/-- A tag inside its object is found, and so are the entries beside it. -/
theorem tagged?_of_rearranged (h : Rearranged (.object ((tag, .string name) :: es)) j)
    (hnames : (tag :: es.map (·.1)).Nodup) (hes : ∀ e ∈ es, e.2.isRepresentable = true)
    (tags : List String) (r : Reading) :
    ∃ rest, j.tagged? tag tags r = some (name, .object rest) ∧ Finds rest es := by
  have hwhole : (Json.object ((tag, .string name) :: es)).isRepresentable = true :=
    Schema.representable_entries (List.forall_mem_cons.mpr ⟨rfl, hes⟩)
  rw [← h.isRepresentable_eq] at hwhole
  obtain ⟨gs, rfl, hgs⟩ := h.finds hnames
  obtain ⟨l, hl, htag⟩ := hgs _ List.mem_cons_self
  cases htag
  refine ⟨gs.filter (·.1 != tag), ?_, fun e he => ?_⟩
  · have hrest : entriesRepresentable (gs.filter (·.1 != tag)) = true :=
      entriesRepresentable_iff.mpr fun e he =>
        entriesRepresentable_iff.mp hwhole e (List.mem_of_mem_filter he)
    simp only [tagged?, hl, hrest, tag?, if_true]
    rfl
  · obtain ⟨k, hk, hrearranged⟩ := hgs e (List.mem_cons_of_mem _ he)
    have hne : e.1 ≠ tag := fun heq =>
      (List.nodup_cons.mp hnames).1 (heq ▸ List.mem_map.mpr ⟨e, he, rfl⟩)
    exact ⟨k, by rw [named_filter_ne hne, hk], hrearranged⟩

/-- A label beside its content is found, and so is the content, in front of it or behind. -/
theorem labelled?_of_rearranged {label content : String}
    (h : Rearranged (.object [(label, .string name), (content, v)]) j) (hne : label ≠ content)
    (hv : v.isRepresentable = true) (tags : List String) (r : Reading) :
    ∃ r' k, j.labelled? label content tags r = some (name, r', k) ∧ Rearranged v k := by
  have hnames : ([(label, Json.string name), (content, v)].map (·.1)).Nodup := by
    simp [hne]
  obtain ⟨gs, rfl, hgs⟩ := h.finds hnames
  obtain ⟨l, hl, hlabel⟩ := hgs _ List.mem_cons_self
  obtain ⟨k, hk, hcontent⟩ := hgs (content, v) (List.mem_cons_of_mem _ List.mem_cons_self)
  cases hlabel
  have hrepresentable : k.isRepresentable = true := by rw [hcontent.isRepresentable_eq, hv]
  by_cases hbefore : isBefore content label gs = true
  · refine ⟨.kept, k, ?_, hcontent⟩
    simp only [labelled?, hl, hk, hbefore, hrepresentable, label?, if_true]
    rfl
  · refine ⟨r, k, ?_, hcontent⟩
    simp only [labelled?, hl, hk, hbefore, label?]
    rfl

end Json

end Transponder
