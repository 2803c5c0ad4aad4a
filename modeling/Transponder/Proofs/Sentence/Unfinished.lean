import Transponder.Proofs.Sentence.History

/-!
# Messages that lack a fragment

`FragmentTable.Unfinished` says that every message in a table has several numbers, some fragments,
and fewer than it has numbers. A fragment alone may complete its message; when the message is then
taken, the table is as it should be (`Unfinished.add_take`), and the other messages are what they
were but for those that are too old (`get?_add_take`).
-/

namespace Transponder

theorem exists_of_mapM_eq_none {α β : Type} {f : α → Option β} :
    ∀ {xs : List α}, xs.mapM f = none → ∃ x ∈ xs, f x = none
  | [], h => by cases h
  | y :: ys, h => by
    rw [List.mapM_cons] at h
    cases hy : f y with
    | none => exact ⟨y, List.mem_cons_self, hy⟩
    | some b =>
      rw [hy] at h
      cases hys : ys.mapM f with
      | none =>
        obtain ⟨x, hx, hf⟩ := exists_of_mapM_eq_none hys
        exact ⟨x, List.mem_cons_of_mem y hx, hf⟩
      | some bs =>
        rw [hys] at h
        cases h

/-- Where not all fragments are there, one of a certain number is missing. -/
theorem exists_missing {held : List (Nat × Fragment)} {total : Nat}
    (h : complete? held total = none) :
    ∃ number, 1 ≤ number ∧ number ≤ total ∧ number ∉ held.map Prod.fst := by
  obtain ⟨i, hi, hnone⟩ := exists_of_mapM_eq_none h
  refine ⟨i + 1, Nat.succ_pos i, List.mem_range.mp hi, fun hmem => ?_⟩
  obtain ⟨x, hx, he⟩ := List.mem_map.mp hmem
  exact bne_iff_ne.mp (List.lookup_eq_none_iff.mp hnone x hx) he.symm

namespace FragmentSet

/-- Fragments with numbers of a message that has `total` of them, none of them twice. -/
structure Within (s : FragmentSet) (total : Nat) : Prop where
  nodup : (s.fragments.map Prod.fst).Nodup
  bounds : ∀ x ∈ s.fragments, 1 ≤ x.1 ∧ x.1 ≤ total

/-- Some fragments of a message in several sentences, but not all of them. -/
structure Unfinished (s : FragmentSet) (total : Nat) : Prop extends s.Within total where
  several : 2 ≤ total
  received : 1 ≤ s.fragments.length
  missing : s.fragments.length < total

variable {s : FragmentSet} {total number : Nat} {now : Moment} {fragment : Fragment}

theorem Within.empty : (empty now).Within total :=
  ⟨List.nodup_nil, fun _ hx => nomatch hx⟩

theorem Within.insert (h : s.Within total) (hpos : 1 ≤ number) (hle : number ≤ total) :
    (s.insert now number fragment).Within total where
  nodup := nodup_cons_filter h.nodup
  bounds := List.forall_mem_cons.mpr
    ⟨⟨hpos, hle⟩, fun x hx => h.bounds x (List.mem_filter.mp hx).1⟩

/-- There are fewer fragments than numbers if not all of them are there. -/
theorem Within.length_lt (h : s.Within total) (hnone : s.complete? total = none) :
    s.fragments.length < total := by
  obtain ⟨missing, hpos, hle, hmem⟩ := exists_missing hnone
  -- The numbers that are there are all different, and among those that are left without this one.
  have hmissing : missing ∈ List.range' 1 total := List.mem_range'_1.mpr (by omega)
  have hsub : s.fragments.map Prod.fst ⊆ (List.range' 1 total).erase missing := by
    intro n hn
    have hne : n ≠ missing := fun he => hmem (he ▸ hn)
    obtain ⟨x, hx, rfl⟩ := List.mem_map.mp hn
    have hbounds := h.bounds x hx
    rw [List.mem_erase_of_ne hne]
    exact List.mem_range'_1.mpr (by omega)
  have hlength := (h.nodup.subperm hsub).length_le
  rw [List.length_map, List.length_erase_of_mem hmissing, List.length_range'] at hlength
  omega

end FragmentSet

namespace FragmentTable

variable {t t' : FragmentTable} {key key' : FragmentKey} {now : Moment} {number : Nat}
  {fragment : Fragment} {s : FragmentSet}

/-- No message occurs twice in a table, and every one of them lacks a fragment. -/
structure Unfinished (t : FragmentTable) : Prop where
  nodup : (t.entries.map Prod.fst).Nodup
  entries : ∀ e ∈ t.entries, e.2.Unfinished e.1.total

theorem Unfinished.of_sublist (h : t.Unfinished) (hs : t'.entries.Sublist t.entries) :
    t'.Unfinished where
  nodup := h.nodup.sublist (hs.map Prod.fst)
  entries e he := h.entries e (hs.subset he)

theorem Unfinished.of_entries_eq_nil (h : t.entries = []) : t.Unfinished where
  nodup := h ▸ List.nodup_nil
  entries _ he := nomatch h ▸ he

theorem Unfinished.evict (h : t.Unfinished) : (t.evict now).Unfinished :=
  h.of_sublist List.filter_sublist

theorem Unfinished.insert (h : t.Unfinished) (hs : s.Unfinished key.total) :
    (t.insert key s).Unfinished where
  nodup := nodup_cons_filter h.nodup
  entries := List.forall_mem_cons.mpr
    ⟨hs, fun e he => h.entries e (List.mem_filter.mp he).1⟩

theorem Unfinished.of_get? (h : t.Unfinished) (hg : t.get? key = some s) :
    s.Unfinished key.total := by
  obtain ⟨front, back, he, -⟩ := List.lookup_eq_some_iff.mp hg
  exact h.entries (key, s) (by rw [he]; exact List.mem_append_right _ List.mem_cons_self)

theorem erase_insert : (t.insert key s).erase key = t.erase key := by
  have hentries : (t.insert key s).entries.filter (·.1 != key) = (t.erase key).entries := by
    rw [insert, List.filter_cons_of_neg (by simp)]
    exact List.filter_eq_self.mpr fun e he => (List.mem_filter.mp he).2
  rw [erase, hentries]
  rfl

/-! ## A fragment comes -/

/-- The fragments of a message after one has come, if the message was not too old. -/
def arrived (t : FragmentTable) (now : Moment) (key : FragmentKey) (number : Nat)
    (fragment : Fragment) : FragmentSet :=
  (((t.evict now).get? key).getD (.empty now)).insert now number fragment

/-- A number that the message has is put in. -/
theorem add_eq_insert (hpos : 1 ≤ number) (hle : number ≤ key.total) :
    (t.add now key number fragment).1 =
      (t.evict now).insert key (t.arrived now key number fragment) :=
  congrArg Prod.fst (if_neg (by omega))

theorem Unfinished.arrived (h : t.Unfinished) (hpos : 1 ≤ number) (hle : number ≤ key.total) :
    (t.arrived now key number fragment).Within key.total := by
  rw [FragmentTable.arrived]
  refine FragmentSet.Within.insert ?_ hpos hle
  cases hg : (t.evict now).get? key with
  | none => exact .empty
  | some s => exact (h.evict.of_get? hg).toWithin

theorem take?_add (hpos : 1 ≤ number) (hle : number ≤ key.total) :
    (t.add now key number fragment).1.take? key =
      ((t.arrived now key number fragment).complete? key.total).map fun fragments =>
        (join fragments, (t.evict now).erase key) := by
  rw [add_eq_insert hpos hle, take?_of_get? get?_insert_self, erase_insert]
  rfl

/-- A message that is not complete after a fragment has come is waited for. -/
theorem Unfinished.add (h : t.Unfinished) (hseveral : 2 ≤ key.total) (hpos : 1 ≤ number)
    (hle : number ≤ key.total) (hnone : (t.add now key number fragment).1.take? key = none) :
    (t.add now key number fragment).1.Unfinished := by
  rw [take?_add hpos hle, Option.map_eq_none_iff] at hnone
  rw [add_eq_insert hpos hle]
  have hwithin : (t.arrived now key number fragment).Within key.total := h.arrived hpos hle
  exact h.evict.insert
    { toWithin := hwithin
      several := hseveral
      received := Nat.succ_pos _
      missing := hwithin.length_lt hnone }

/-- A fragment comes, and its message is taken if it is complete: no complete message is left. -/
theorem Unfinished.add_take (h : t.Unfinished) (hseveral : 2 ≤ key.total) (hpos : 1 ≤ number)
    (hle : number ≤ key.total) :
    ((Call.take key).apply (t.add now key number fragment).1).Unfinished := by
  rw [Call.apply]
  cases htake : (t.add now key number fragment).1.take? key with
  | none => exact h.add hseveral hpos hle htake
  | some taken =>
    rw [take?_add hpos hle] at htake
    obtain ⟨fragments, -, rfl⟩ := Option.map_eq_some_iff.mp htake
    have hevict : (t.evict now).Unfinished := h.evict
    exact hevict.of_sublist List.filter_sublist

/-- How many fragments there are of a message that is not complete. -/
theorem Unfinished.received_add (h : t.Unfinished) (hseveral : 2 ≤ key.total) (hpos : 1 ≤ number)
    (hle : number ≤ key.total) (hnone : (t.add now key number fragment).1.take? key = none) :
    1 ≤ (t.add now key number fragment).1.received key ∧
      (t.add now key number fragment).1.received key < key.total := by
  have hget : (t.add now key number fragment).1.get? key =
      some (t.arrived now key number fragment) := by
    rw [add_eq_insert hpos hle, get?_insert_self]
  have hset := (h.add hseveral hpos hle hnone).of_get? hget
  rw [received, hget]
  exact ⟨hset.received, hset.missing⟩

/-- The other messages are kept, but for those that are too old. -/
theorem Unfinished.get?_add_take (h : t.Unfinished) (hpos : 1 ≤ number) (hle : number ≤ key.total)
    (hne : key' ≠ key) :
    ((Call.take key).apply (t.add now key number fragment).1).get? key' =
      (t.get? key').filter fun s => t.isFresh now s.lastSeen := by
  have hevict : (t.evict now).get? key' =
      (t.get? key').filter fun s => t.isFresh now s.lastSeen :=
    lookup_filter h.nodup _ key'
  rw [← hevict, Call.apply]
  cases htake : (t.add now key number fragment).1.take? key with
  | none =>
    rw [add_eq_insert hpos hle]
    exact get?_insert_ne hne
  | some taken =>
    rw [take?_add hpos hle] at htake
    obtain ⟨fragments, -, rfl⟩ := Option.map_eq_some_iff.mp htake
    exact get?_erase_ne hne

end FragmentTable

end Transponder
