import Transponder.Sentence.Fragment

/-!
# What the fragment table holds

`held t key` is what a table holds of the message with a key, the fragment that came last in front.
Each operation is described by what it does to it: `add` puts a fragment in front (`Adds`) and
answers how many there are then (`answer_add`), `take?` gives the fragments in the order of their
numbers once they are all there and forgets them (`take?_of_complete`, `take?_of_incomplete`).
`Current` says that a table holds no message without a fragment and has seen all of them at moments
of a kind: if no two of these are further apart than the limit of the table, nothing is given up.
-/

namespace Transponder

/-! ## Association lists -/

section Lookup

variable {α β : Type} [BEq α] [LawfulBEq α]

theorem lookup_filter_ne {k k' : α} (h : k' ≠ k) (xs : List (α × β)) :
    (xs.filter (·.1 != k)).lookup k' = xs.lookup k' := by
  induction xs with
  | nil => rfl
  | cons x xs ih =>
    obtain ⟨a, b⟩ := x
    by_cases ha : a = k
    · subst ha
      rw [List.filter_cons_of_neg (by simp), ih, List.lookup_cons, beq_false_of_ne h]
    · rw [List.filter_cons_of_pos (by simpa using ha), List.lookup_cons, List.lookup_cons, ih]

theorem lookup_filter_self (k : α) (xs : List (α × β)) :
    (xs.filter (·.1 != k)).lookup k = none := by
  rw [List.lookup_eq_none_iff]
  intro x hx
  exact bne_iff_ne.mpr (Ne.symm (bne_iff_ne.mp (List.mem_filter.mp hx).2))

/-- A pair of a list in which no key occurs twice. -/
theorem lookup_eq_some_of_mem {k : α} {b : β} {xs : List (α × β)} (hk : (xs.map Prod.fst).Nodup)
    (h : (k, b) ∈ xs) : xs.lookup k = some b := by
  obtain ⟨front, back, rfl⟩ := List.append_of_mem h
  rw [List.lookup_eq_some_iff]
  rw [List.map_append, List.map_cons, List.nodup_append] at hk
  refine ⟨front, back, rfl, fun x hx => bne_iff_ne.mpr (Ne.symm ?_)⟩
  exact hk.2.2 x.1 (List.mem_map_of_mem hx) k List.mem_cons_self

/-- A filtered list in which no key occurs twice finds what was there, if it passes. -/
theorem lookup_filter {xs : List (α × β)} (hk : (xs.map Prod.fst).Nodup) (p : α × β → Bool)
    (k : α) : (xs.filter p).lookup k = (xs.lookup k).filter fun b => p (k, b) := by
  induction xs with
  | nil => rfl
  | cons x xs ih =>
    obtain ⟨a, b⟩ := x
    obtain ⟨ha, hxs⟩ := List.nodup_cons.mp hk
    by_cases hak : k = a
    · subst hak
      have hnone : xs.lookup k = none :=
        List.lookup_eq_none_iff.mpr fun x hx => bne_iff_ne.mpr fun he =>
          ha (List.mem_map.mpr ⟨x, hx, he.symm⟩)
      rw [List.lookup_cons_self, Option.filter_some]
      by_cases hp : p (k, b)
      · rw [List.filter_cons_of_pos hp, List.lookup_cons_self, if_pos hp]
      · rw [List.filter_cons_of_neg hp, ih hxs, hnone, if_neg hp]
        rfl
    · have hne : (k == a) = false := beq_false_of_ne hak
      rw [List.lookup_cons, hne, List.filter_cons]
      split
      · rw [List.lookup_cons, hne, ih hxs]
      · exact ih hxs

/-- A key comes in place of what it had, and no key occurs twice. -/
theorem nodup_cons_filter {k : α} {b : β} {xs : List (α × β)} (hk : (xs.map Prod.fst).Nodup) :
    (((k, b) :: xs.filter (·.1 != k)).map Prod.fst).Nodup := by
  refine List.nodup_cons.mpr ⟨fun hmem => ?_, hk.sublist (List.filter_sublist.map Prod.fst)⟩
  obtain ⟨x, hx, he⟩ := List.mem_map.mp hmem
  exact bne_iff_ne.mp (List.mem_filter.mp hx).2 he

end Lookup

theorem mapM_range_eq_some {α : Type} :
    ∀ (xs : List α) (f : Nat → Option α), (∀ i (h : i < xs.length), f i = some xs[i]) →
      (List.range xs.length).mapM f = some xs
  | [], _, _ => rfl
  | x :: xs, f, h => by
    have ih := mapM_range_eq_some xs (f ∘ Nat.succ) fun i hi => h (i + 1) (Nat.succ_lt_succ hi)
    rw [List.length_cons, List.range_succ_eq_map, List.mapM_cons, List.mapM_map,
      h 0 (Nat.zero_lt_succ _)]
    exact congrArg (fun o : Option (List α) => o >>= fun ys => some (x :: ys)) ih

theorem mapM_eq_none {α β : Type} {f : α → Option β} {x : α} (hf : f x = none) :
    ∀ xs : List α, x ∈ xs → xs.mapM f = none
  | y :: ys, hx => by
    rw [List.mapM_cons]
    rcases List.mem_cons.mp hx with rfl | hx
    · rw [hf]
      rfl
    · rw [mapM_eq_none hf ys hx]
      cases f y <;> rfl

/-! ## The fragments of a message -/

/-- Fragments with their numbers, which count from 1. -/
def numbered (fragments : List Fragment) : List (Nat × Fragment) :=
  fragments.mapIdx fun i fragment => (i + 1, fragment)

/-- The fragments from 1 to `total`, if they are all there. -/
def complete? (held : List (Nat × Fragment)) (total : Nat) : Option (List Fragment) :=
  (List.range total).mapM fun i => held.lookup (i + 1)

theorem length_numbered (fragments : List Fragment) :
    (numbered fragments).length = fragments.length :=
  List.length_mapIdx

theorem getElem_numbered {fragments : List Fragment} {i : Nat} (h : i < fragments.length)
    (h' : i < (numbered fragments).length) :
    (numbered fragments)[i] = (i + 1, fragments[i]) := by
  simp [numbered]

theorem map_fst_numbered (fragments : List Fragment) :
    (numbered fragments).map Prod.fst = List.range' 1 fragments.length := by
  apply List.ext_getElem
  · rw [List.length_map, length_numbered, List.length_range']
  · intro i h₁ h₂
    rw [List.length_range'] at h₂
    rw [List.getElem_map, getElem_numbered h₂, List.getElem_range', Nat.one_mul, Nat.add_comm]

theorem nodup_numbered (fragments : List Fragment) :
    ((numbered fragments).map Prod.fst).Nodup := by
  rw [map_fst_numbered]
  exact List.nodup_range'

theorem complete?_of_perm {held : List (Nat × Fragment)} {fragments : List Fragment}
    (h : held.Perm (numbered fragments)) : complete? held fragments.length = some fragments := by
  refine mapM_range_eq_some fragments _ fun i hi => ?_
  refine lookup_eq_some_of_mem ((h.map Prod.fst).nodup_iff.mpr (nodup_numbered fragments)) ?_
  have hi' : i < (numbered fragments).length := by rwa [length_numbered]
  rw [h.mem_iff, ← getElem_numbered hi hi']
  exact List.getElem_mem _

theorem complete?_of_missing {held : List (Nat × Fragment)} {total number : Nat}
    (h : number ∉ held.map Prod.fst) (hpos : 0 < number) (hle : number ≤ total) :
    complete? held total = none := by
  refine mapM_eq_none (x := number - 1) ?_ _ (List.mem_range.mpr (by omega))
  rw [Nat.sub_add_cancel hpos, List.lookup_eq_none_iff]
  intro x hx
  refine bne_iff_ne.mpr fun he => h ?_
  rw [he]
  exact List.mem_map_of_mem hx

theorem bounds_of_mem_numbered {fragments : List Fragment} {x : Nat × Fragment}
    (h : x ∈ numbered fragments) : 0 < x.1 ∧ x.1 ≤ fragments.length := by
  have hx : x.1 ∈ (numbered fragments).map Prod.fst := List.mem_map_of_mem h
  rw [map_fst_numbered, List.mem_range'_1] at hx
  omega

section Arrival

variable {front back : List (Nat × Fragment)} {x : Nat × Fragment} {fragments : List Fragment}

/-- A fragment does not come twice. -/
theorem filter_ne_of_perm (h : (front ++ x :: back).Perm (numbered fragments)) :
    front.filter (·.1 != x.1) = front := by
  have hnodup := (h.map Prod.fst).nodup_iff.mpr (nodup_numbered fragments)
  rw [List.map_append, List.map_cons, List.nodup_append] at hnodup
  refine List.filter_eq_self.mpr fun y hy => bne_iff_ne.mpr ?_
  exact hnodup.2.2 y.1 (List.mem_map_of_mem hy) x.1 List.mem_cons_self

theorem complete?_of_last (h : (front ++ [x]).Perm (numbered fragments)) :
    complete? (x :: front) fragments.length = some fragments :=
  complete?_of_perm (List.perm_append_singleton x front |>.symm.trans h)

theorem complete?_of_not_last (h : (front ++ x :: back).Perm (numbered fragments))
    (hb : back ≠ []) : complete? (x :: front) fragments.length = none := by
  obtain ⟨y, hy⟩ := List.exists_mem_of_ne_nil back hb
  obtain ⟨hpos, hle⟩ := bounds_of_mem_numbered
    (h.mem_iff.mp (List.mem_append_right _ (List.mem_cons_of_mem x hy)))
  refine complete?_of_missing (fun hmem => ?_) hpos hle
  have hperm : ((x :: front) ++ back).Perm (numbered fragments) := List.perm_middle.symm.trans h
  have hnodup := (hperm.map Prod.fst).nodup_iff.mpr (nodup_numbered fragments)
  rw [List.map_append, List.nodup_append] at hnodup
  exact hnodup.2.2 y.1 hmem y.1 (List.mem_map_of_mem hy) rfl

end Arrival

namespace FragmentTable

variable {t : FragmentTable} {key key' : FragmentKey} {now : Moment} {number : Nat}
  {fragment : Fragment} {times : Moment → Prop}

/-- The fragments of a message that are there, the last one in front. -/
def held (t : FragmentTable) (key : FragmentKey) : List (Nat × Fragment) :=
  ((t.get? key).map (·.fragments)).getD []

theorem get?_erase_self : (t.erase key).get? key = none :=
  lookup_filter_self key t.entries

theorem get?_erase_ne (h : key' ≠ key) : (t.erase key).get? key' = t.get? key' :=
  lookup_filter_ne h t.entries

theorem get?_insert_self {s : FragmentSet} : (t.insert key s).get? key = some s :=
  List.lookup_cons_self

theorem get?_insert_ne {s : FragmentSet} (h : key' ≠ key) :
    (t.insert key s).get? key' = t.get? key' := by
  show List.lookup key' ((key, s) :: (t.erase key).entries) = _
  rw [List.lookup_cons, beq_false_of_ne h]
  exact get?_erase_ne h

/-- A table that finds no message holds none. -/
theorem entries_eq_nil (h : ∀ key, t.get? key = none) : t.entries = [] := by
  cases he : t.entries with
  | nil => rfl
  | cons e es =>
    have hkey := h e.1
    rw [get?, he, List.lookup_cons_self] at hkey
    cases hkey

/-- Every message in the table has a fragment, and was seen at a moment of a kind. -/
structure Current (t : FragmentTable) (times : Moment → Prop) : Prop where
  nonempty : ∀ e ∈ t.entries, e.2.fragments ≠ []
  seen : ∀ e ∈ t.entries, times e.2.lastSeen

/-- No two moments are further apart than the limit of the table. -/
def Spans (maxAge : Nat) (times : Moment → Prop) : Prop :=
  ∀ now seen, times now → times seen →
    now.since seen ≤ Moment.nanosecondsPerSecond * (maxAge : Int)

theorem Current.evict_eq_self (h : t.Current times) (hs : Spans t.maxAge times) (hn : times now) :
    t.evict now = t := by
  have hfresh : t.entries.filter (fun e => t.isFresh now e.2.lastSeen) = t.entries :=
    List.filter_eq_self.mpr fun e he => decide_eq_true (hs now _ hn (h.seen e he))
  rw [evict, hfresh]

theorem Current.erase (h : t.Current times) : (t.erase key).Current times where
  nonempty e he := h.nonempty e (List.mem_filter.mp he).1
  seen e he := h.seen e (List.mem_filter.mp he).1

theorem Current.insert (h : t.Current times) {s : FragmentSet} (hf : s.fragments ≠ [])
    (hs : times s.lastSeen) : (t.insert key s).Current times where
  nonempty := List.forall_mem_cons.mpr ⟨hf, h.erase.nonempty⟩
  seen := List.forall_mem_cons.mpr ⟨hs, h.erase.seen⟩

/-- A table that holds no fragment of any message has no entry. -/
theorem Current.entries_eq_nil (h : t.Current times) (hh : ∀ key, t.held key = []) :
    t.entries = [] := by
  refine FragmentTable.entries_eq_nil fun key => ?_
  cases hg : t.get? key with
  | none => rfl
  | some s =>
    have hk := hh key
    rw [held, hg] at hk
    obtain ⟨l₁, l₂, he, -⟩ := List.lookup_eq_some_iff.mp hg
    exact absurd hk (h.nonempty (key, s) (by rw [he]; simp))

/-! ## What the operations do -/

/-- Whether a fragment is left out or put in, the answer is how many there are of its message then. -/
theorem answer_add : (t.add now key number fragment).2 =
    (t.add now key number fragment).1.received key := by
  rw [add]
  dsimp only
  split
  · rfl
  · rw [received, get?_insert_self]

/-- A table after a fragment has come. -/
structure Adds (t t' : FragmentTable) (times : Moment → Prop) (key : FragmentKey)
    (held : List (Nat × Fragment)) : Prop where
  current : t'.Current times
  maxAge : t'.maxAge = t.maxAge
  held_self : t'.held key = held
  held_ne : ∀ key', key' ≠ key → t'.held key' = t.held key'

theorem Current.add (h : t.Current times) (hs : Spans t.maxAge times) (hn : times now)
    (hpos : 0 < number) (hle : number ≤ key.total) :
    Adds t (t.add now key number fragment).1 times key
      ((number, fragment) :: (t.held key).filter (·.1 != number)) := by
  have hadd : (t.add now key number fragment).1 =
      t.insert key (((t.get? key).getD (.empty now)).insert now number fragment) := by
    rw [FragmentTable.add, h.evict_eq_self hs hn]
    exact congrArg Prod.fst (if_neg (by omega))
  rw [hadd]
  refine ⟨h.insert (List.cons_ne_nil _ _) hn, rfl, ?_, fun key' hne => ?_⟩
  · rw [held, get?_insert_self, held]
    cases t.get? key <;> rfl
  · rw [held, get?_insert_ne hne, held]

theorem take?_of_get? {s : FragmentSet} (h : t.get? key = some s) :
    t.take? key = (complete? s.fragments key.total).map fun fragments =>
      (join fragments, t.erase key) := by
  rw [take?, h]
  show (complete? s.fragments key.total >>= _) = _
  cases complete? s.fragments key.total <;> rfl

theorem take?_of_complete {fragments : List Fragment} (hpos : 0 < key.total)
    (h : complete? (t.held key) key.total = some fragments) :
    t.take? key = some (join fragments, t.erase key) := by
  cases hg : t.get? key with
  | none =>
    rw [held, hg, complete?_of_missing (show 1 ∉ _ from List.not_mem_nil) Nat.one_pos hpos] at h
    cases h
  | some s =>
    rw [held, hg] at h
    rw [take?_of_get? hg, show complete? s.fragments key.total = some fragments from h]
    rfl

theorem take?_of_incomplete (h : complete? (t.held key) key.total = none) :
    t.take? key = none := by
  cases hg : t.get? key with
  | none => rw [take?, hg]; rfl
  | some s =>
    rw [held, hg] at h
    rw [take?_of_get? hg, show complete? s.fragments key.total = none from h]
    rfl

theorem join_singleton : join [fragment] = fragment := by
  show Fragment.mk ("" ++ fragment.payload) fragment.fillBits = fragment
  rw [String.empty_append]

theorem received_eq : t.received key = (t.held key).length := by
  rw [received, held]
  cases t.get? key <;> rfl

end FragmentTable

end Transponder
