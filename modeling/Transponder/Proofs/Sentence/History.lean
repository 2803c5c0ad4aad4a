import Mathlib.Data.Set.Card
import Transponder.Proofs.Sentence.Fragment

/-!
# The fragment table refines its history

A history is the calls that a table has seen, the last one in front. `live` reads off a history what
is left of the fragments of one message, without a table: a call adds at most one, and removes all
of them or none (`Call.Removes`). A table whose every entry is the summary of the live fragments of
its message stays so with each call (`Recalls.apply`), so what it answers is a matter of its history
alone (`answers_of_history`).
-/

namespace Transponder

/-- A fragment that came, with the time that was given. -/
structure Addition where
  now : Moment
  number : Nat
  fragment : Fragment

namespace Addition

variable {a : Addition} {as : List Addition} {number total maxAge : Nat} {now : Moment}
  {key : FragmentKey}

/-! ## The additions of one message, the last one in front -/

/-- There is a fragment of every number from 1 to `total`. -/
def Complete (as : List Addition) (total : Nat) : Prop :=
  ∀ number, 1 ≤ number → number ≤ total → ∃ a ∈ as, a.number = number

/-- The last fragment came more than `maxAge` seconds before `now`, by a nanosecond at least. -/
def Expired (maxAge : Nat) (now : Moment) : List Addition → Prop
  | [] => False
  | last :: _ => Moment.nanosecondsPerSecond * (maxAge : Int) < now.since last.now

/-- The last fragment with a number. -/
def recent (as : List Addition) (number : Nat) : Fragment :=
  ((as.find? (·.number == number)).map (·.fragment)).getD ⟨"", 0⟩

/-- The last payloads of the numbers from 1 to `total`, and the fill bits of the last one. -/
def joined (as : List Addition) (total : Nat) : Fragment where
  payload := String.join ((List.range' 1 total).map fun number => (recent as number).payload)
  fillBits := (recent as total).fillBits

/-- How many numbers there are fragments of. -/
def distinct (as : List Addition) : Nat :=
  (as.map (·.number)).toFinset.card

instance : Decidable (Complete as total) :=
  decidable_of_iff (∀ i < total, ∃ a ∈ as, a.number = i + 1) <| by
    constructor
    · intro h number hpos hle
      obtain ⟨a, ha, hn⟩ := h (number - 1) (by omega)
      exact ⟨a, ha, by omega⟩
    · intro h i hi
      exact h (i + 1) (by omega) (by omega)

instance : Decidable (Expired maxAge now as) :=
  match as with
  | [] => inferInstanceAs (Decidable False)
  | _ :: _ => inferInstanceAs (Decidable (_ < _))

/-- The last fragment of every number, that of the last addition in front. -/
def latest : List Addition → List (Nat × Fragment)
  | [] => []
  | a :: as => (a.number, a.fragment) :: (latest as).filter (·.1 != a.number)

theorem lookup_latest (as : List Addition) (number : Nat) :
    (latest as).lookup number = (as.find? (·.number == number)).map (·.fragment) := by
  induction as with
  | nil => rfl
  | cons a as ih =>
    rw [latest, List.lookup_cons, List.find?_cons]
    by_cases h : number = a.number
    · rw [beq_iff_eq.mpr h, beq_iff_eq.mpr h.symm]
      rfl
    · rw [beq_false_of_ne h, beq_false_of_ne (Ne.symm h)]
      exact (lookup_filter_ne h _).trans ih

theorem mem_latest (as : List Addition) (number : Nat) :
    number ∈ (latest as).map Prod.fst ↔ number ∈ as.map (·.number) := by
  induction as with
  | nil => rfl
  | cons a as ih =>
    rw [latest, List.map_cons, List.map_cons, List.mem_cons, List.mem_cons, ← ih]
    by_cases h : number = a.number
    · exact iff_of_true (.inl h) (.inl h)
    · refine or_congr_right ?_
      rw [List.mem_map, List.mem_map]
      constructor
      · rintro ⟨x, hx, rfl⟩
        exact ⟨x, (List.mem_filter.mp hx).1, rfl⟩
      · rintro ⟨x, hx, rfl⟩
        exact ⟨x, List.mem_filter.mpr ⟨hx, bne_iff_ne.mpr h⟩, rfl⟩

theorem nodup_latest (as : List Addition) : ((latest as).map Prod.fst).Nodup := by
  induction as with
  | nil => exact List.nodup_nil
  | cons a as ih =>
    rw [latest]
    exact nodup_cons_filter ih

theorem length_latest (as : List Addition) : (latest as).length = distinct as := by
  rw [distinct, ← List.length_map Prod.fst, ← List.toFinset_card_of_nodup (nodup_latest as)]
  congr 1
  ext number
  rw [List.mem_toFinset, List.mem_toFinset, mem_latest]

theorem lookup_latest_of_mem (h : ∃ a ∈ as, a.number = number) :
    (latest as).lookup number = some (recent as number) := by
  rw [lookup_latest, recent]
  obtain ⟨a, ha, hn⟩ := h
  cases hf : as.find? (·.number == number) with
  | none => exact absurd (beq_iff_eq.mpr hn) (List.find?_eq_none.mp hf a ha)
  | some b => rfl

theorem complete?_latest (h : Complete as total) :
    complete? (latest as) total = some ((List.range' 1 total).map (recent as)) := by
  have hlen : ((List.range' 1 total).map (recent as)).length = total := by
    rw [List.length_map, List.length_range']
  have hmap := mapM_range_eq_some ((List.range' 1 total).map (recent as))
    (fun i => (latest as).lookup (i + 1)) fun i hi => by
      rw [List.getElem_map, List.getElem_range', Nat.one_mul, Nat.add_comm 1 i]
      exact lookup_latest_of_mem (h (i + 1) (by omega) (by omega))
  rw [hlen] at hmap
  exact hmap

theorem complete?_latest_eq_none (h : ¬ Complete as total) :
    complete? (latest as) total = none := by
  obtain ⟨number, hpos, hle, hmissing⟩ : ∃ number, 1 ≤ number ∧ number ≤ total ∧
      ¬ ∃ a ∈ as, a.number = number := by
    by_contra hall
    exact h fun number hpos hle => by
      by_contra hmissing
      exact hall ⟨number, hpos, hle, hmissing⟩
  refine complete?_of_missing (fun hmem => hmissing ?_) hpos hle
  exact List.mem_map.mp ((mem_latest as number).mp hmem)

theorem join_recent (hpos : 0 < total) :
    FragmentTable.join ((List.range' 1 total).map (recent as)) = joined as total := by
  have hlast : ((List.range' 1 total).map (recent as)).getLast? = some (recent as total) := by
    obtain ⟨n, rfl⟩ : ∃ n, total = n + 1 := ⟨total - 1, by omega⟩
    rw [List.range'_1_concat, List.map_append, List.map_singleton, List.getLast?_concat,
      Nat.add_comm 1 n]
  rw [FragmentTable.join, hlast, List.map_map]
  rfl

/-- What a table keeps of the additions of a message. -/
def summary : List Addition → Option FragmentSet
  | [] => none
  | a :: as => some ⟨a.now, latest (a :: as)⟩

theorem summary_eq_none : summary as = none ↔ as = [] := by
  cases as with
  | nil => exact iff_of_true rfl rfl
  | cons a as => exact iff_of_false (Option.some_ne_none _) (List.cons_ne_nil a as)

/-- One more fragment. -/
theorem insert_summary (as : List Addition) (now : Moment) (number : Nat) (fragment : Fragment) :
    some (((summary as).getD (.empty now)).insert now number fragment) =
      summary (⟨now, number, fragment⟩ :: as) := by
  cases as <;> rfl

end Addition

namespace FragmentTable

open Addition

/-! ## Histories -/

/-- A call that may change a table. -/
inductive Call where
  | add (now : Moment) (key : FragmentKey) (number : Nat) (fragment : Fragment)
  | take (key : FragmentKey)
  | evict (now : Moment)
  | clear

namespace Call

def apply (t : FragmentTable) : Call → FragmentTable
  | add now key number fragment => (t.add now key number fragment).1
  | take key => ((t.take? key).map Prod.snd).getD t
  | evict now => t.evict now
  | clear => t.clear

/-- The fragment that a call adds to a message, if the message has its number. -/
def added (key : FragmentKey) : Call → List Addition
  | add now key' number fragment =>
    if key' = key ∧ 1 ≤ number ∧ number ≤ key.total then [⟨now, number, fragment⟩] else []
  | _ => []

/-- Whether a call removes a message of which there are these fragments. -/
def Removes (maxAge : Nat) (key : FragmentKey) (as : List Addition) : Call → Prop
  | add now _ _ _ | evict now => Expired maxAge now as
  | take key' => key' = key ∧ Complete as key.total
  | clear => True

instance {maxAge : Nat} {key : FragmentKey} {as : List Addition} {c : Call} :
    Decidable (c.Removes maxAge key as) :=
  match c with
  | add .. | evict _ => inferInstanceAs (Decidable (Expired _ _ _))
  | take _ => inferInstanceAs (Decidable (_ ∧ Complete _ _))
  | clear => inferInstanceAs (Decidable True)

end Call

/-- The table that has seen a history, the last call of which is in front. -/
def after (maxAge : Nat) : List Call → FragmentTable
  | [] => .empty maxAge
  | c :: earlier => c.apply (after maxAge earlier)

/-- The fragments of a message that have been added and not been removed since, the last one in
front. -/
def live (maxAge : Nat) (key : FragmentKey) : List Call → List Addition
  | [] => []
  | c :: earlier =>
    c.added key ++
      if c.Removes maxAge key (live maxAge key earlier) then [] else live maxAge key earlier

/-! ## What a call keeps -/

/-- A table keeps the summary of what is there of each message. -/
structure Recalls (t : FragmentTable) (additions : FragmentKey → List Addition) : Prop where
  nodup : (t.entries.map Prod.fst).Nodup
  get? : ∀ key, t.get? key = summary (additions key)

variable {t : FragmentTable} {additions additions' : FragmentKey → List Addition}
  {key : FragmentKey} {now : Moment} {number maxAge : Nat} {fragment : Fragment}

theorem isFresh_eq_false {a : Addition} {as : List Addition} :
    t.isFresh now a.now = false ↔ Expired t.maxAge now (a :: as) := by
  rw [isFresh, decide_eq_false_iff_not, not_le, Expired]

theorem Recalls.evict (h : t.Recalls additions) : (t.evict now).Recalls fun key =>
    if Expired t.maxAge now (additions key) then [] else additions key where
  nodup := h.nodup.sublist (List.filter_sublist.map Prod.fst)
  get? key := by
    rw [FragmentTable.get?, FragmentTable.evict, lookup_filter h.nodup]
    show (t.get? key).filter (fun s => t.isFresh now s.lastSeen) = _
    rw [h.get? key]
    cases hkey : additions key with
    | nil => rfl
    | cons a as =>
      rw [summary, Option.filter_some]
      by_cases hold : Expired t.maxAge now (a :: as)
      · rw [if_pos hold, isFresh_eq_false.mpr hold]
        rfl
      · rw [if_neg hold, if_pos (by rwa [← isFresh_eq_false, Bool.not_eq_false] at hold), summary]

theorem Recalls.erase (h : t.Recalls additions) (hself : additions' key = [])
    (hne : ∀ key' ≠ key, additions' key' = additions key') :
    (t.erase key).Recalls additions' where
  nodup := h.nodup.sublist (List.filter_sublist.map Prod.fst)
  get? key' := by
    by_cases hkey : key' = key
    · rw [hkey, get?_erase_self, hself, summary]
    · rw [get?_erase_ne hkey, hne key' hkey, h.get? key']

theorem Recalls.insert (h : t.Recalls additions)
    (hself : additions' key = ⟨now, number, fragment⟩ :: additions key)
    (hne : ∀ key' ≠ key, additions' key' = additions key') :
    (t.insert key (((t.get? key).getD (.empty now)).insert now number fragment)).Recalls
      additions' where
  nodup := nodup_cons_filter h.nodup
  get? key' := by
    by_cases hkey : key' = key
    · rw [hkey, get?_insert_self, hself, h.get? key, insert_summary]
    · rw [get?_insert_ne hkey, hne key' hkey, h.get? key']

/-- What a table answers that keeps the summaries. -/
theorem Recalls.take? (h : t.Recalls additions) : t.take? key =
    if additions key ≠ [] ∧ Complete (additions key) key.total then
      some (join ((List.range' 1 key.total).map (recent (additions key))), t.erase key)
    else none := by
  have hget := h.get? key
  cases hkey : additions key with
  | nil =>
    rw [hkey] at hget
    rw [FragmentTable.take?, hget, if_neg fun hall => hall.1 rfl]
    rfl
  | cons a as =>
    rw [hkey] at hget
    rw [take?_of_get? hget]
    by_cases hall : Complete (a :: as) key.total
    · rw [complete?_latest hall, if_pos ⟨List.cons_ne_nil a as, hall⟩]
      rfl
    · rw [complete?_latest_eq_none hall, if_neg fun h => hall h.2]
      rfl

/-- What is there of each message after a call. -/
def Call.next (maxAge : Nat) (additions : FragmentKey → List Addition) (c : Call)
    (key : FragmentKey) : List Addition :=
  c.added key ++ if c.Removes maxAge key (additions key) then [] else additions key

theorem Recalls.add (h : t.Recalls additions) :
    (t.add now key number fragment).1.Recalls
      ((Call.add now key number fragment).next t.maxAge additions) := by
  have hevict : (t.evict now).Recalls _ := h.evict
  by_cases hrange : 1 ≤ number ∧ number ≤ key.total
  · rw [FragmentTable.add, if_neg (by omega)]
    refine hevict.insert ?_ fun key' hne => ?_
    · rw [Call.next, Call.added, if_pos ⟨rfl, hrange⟩]
      rfl
    · rw [Call.next, Call.added, if_neg fun hall => hne hall.1.symm]
      rfl
  · rw [FragmentTable.add, if_pos (by omega)]
    have hadded : ∀ key', (Call.add now key number fragment).added key' = [] := fun key' =>
      if_neg (by rintro ⟨rfl, hall⟩; exact hrange hall)
    have hnext : (Call.add now key number fragment).next t.maxAge additions = fun key' =>
        if Expired t.maxAge now (additions key') then [] else additions key' := by
      funext key'
      rw [Call.next, hadded]
      rfl
    rw [hnext]
    exact hevict

theorem Recalls.take (h : t.Recalls additions) :
    ((Call.take key).apply t).Recalls ((Call.take key).next t.maxAge additions) := by
  have hne : ∀ key' ≠ key, (Call.take key).next t.maxAge additions key' = additions key' :=
    fun key' hne => if_neg fun hall : key = key' ∧ _ => hne hall.1.symm
  rw [Call.apply, h.take?]
  by_cases hall : additions key ≠ [] ∧ Complete (additions key) key.total
  · rw [if_pos hall]
    exact h.erase (if_pos ⟨rfl, hall.2⟩) hne
  · rw [if_neg hall]
    have hnext : (Call.take key).next t.maxAge additions = additions := by
      funext key'
      by_cases hkey : key' = key
      · subst hkey
        by_cases hnil : additions key' = []
        · rw [Call.next, hnil, ite_self]
          rfl
        · exact if_neg fun hremoved : key' = key' ∧ _ => hall ⟨hnil, hremoved.2⟩
      · exact hne key' hkey
    rw [hnext]
    exact h

/-- Whatever the call, the table keeps the summary of what is there after it. -/
theorem Recalls.apply (h : t.Recalls additions) (c : Call) :
    (c.apply t).Recalls (c.next t.maxAge additions) :=
  match c with
  | .add .. => h.add
  | .take _ => h.take
  | .evict _ => h.evict
  | .clear => ⟨List.nodup_nil, fun _ => rfl⟩

theorem maxAge_apply (c : Call) : (c.apply t).maxAge = t.maxAge := by
  cases c with
  | add now key number fragment =>
    show (t.add now key number fragment).1.maxAge = t.maxAge
    rw [FragmentTable.add]
    split <;> rfl
  | take key =>
    show (((t.take? key).map Prod.snd).getD t).maxAge = t.maxAge
    cases hg : t.get? key with
    | none => rw [FragmentTable.take?, hg]; rfl
    | some s =>
      rw [take?_of_get? hg]
      cases complete? s.fragments key.total <;> rfl
  | evict now => rfl
  | clear => rfl

variable {history : List Call}

theorem maxAge_after (maxAge : Nat) (history : List Call) :
    (after maxAge history).maxAge = maxAge := by
  induction history with
  | nil => rfl
  | cons c earlier ih => exact (maxAge_apply c).trans ih

/-- After any calls, a table keeps the summary of the live fragments of each message. -/
theorem recalls_after (maxAge : Nat) (history : List Call) :
    (after maxAge history).Recalls fun key => live maxAge key history := by
  induction history with
  | nil => exact ⟨List.nodup_nil, fun _ => rfl⟩
  | cons c earlier ih =>
    have hstep := ih.apply c
    rw [maxAge_after] at hstep
    exact hstep

/-! ## What a table answers -/

theorem total_pos_of_live (h : live maxAge key history ≠ []) : 0 < key.total := by
  induction history with
  | nil => exact absurd rfl h
  | cons c earlier ih =>
    by_contra hzero
    have hadded : c.added key = [] := by
      cases c with
      | add now key' number fragment => exact if_neg (by omega)
      | _ => rfl
    have hnil : live maxAge key earlier = [] := by
      by_contra hlive
      exact hzero (ih hlive)
    rw [live, hadded, hnil, ite_self] at h
    exact h rfl

/-- Only a message that has fragments is removed as a whole one. -/
theorem live_and_complete :
    (live maxAge key history ≠ [] ∧ Complete (live maxAge key history) key.total) ↔
      (0 < key.total ∧ Complete (live maxAge key history) key.total) := by
  refine and_congr_left fun hall => ⟨total_pos_of_live, fun hpos hnil => ?_⟩
  obtain ⟨a, ha, -⟩ := hall 1 le_rfl hpos
  rw [hnil] at ha
  exact List.not_mem_nil ha

theorem Recalls.encard_eq_pending (h : t.Recalls additions) :
    {key | additions key ≠ []}.encard = t.pending := by
  have hset : {key | additions key ≠ []} =
      ((t.entries.map Prod.fst).toFinset : Set FragmentKey) := by
    ext key
    rw [Set.mem_ofPred_eq, Finset.mem_coe, List.mem_toFinset, ← not_iff_not, not_not,
      ← summary_eq_none, ← h.get? key, FragmentTable.get?, List.lookup_eq_none_iff, List.mem_map]
    constructor
    · rintro hnone ⟨e, he, rfl⟩
      exact bne_iff_ne.mp (hnone e he) rfl
    · intro hmem e he
      exact bne_iff_ne.mpr fun heq => hmem ⟨e, he, heq.symm⟩
  rw [hset, Set.encard_coe_eq_coe_finsetCard, List.toFinset_card_of_nodup h.nodup, List.length_map,
    pending]

theorem Recalls.received (h : t.Recalls additions) :
    t.received key = distinct (additions key) := by
  rw [FragmentTable.received, h.get? key]
  cases additions key with
  | nil => rfl
  | cons a as => exact length_latest (a :: as)

theorem isComplete_eq_isSome : t.isComplete key = (t.take? key).isSome := by
  cases hg : t.get? key with
  | none => rw [isComplete, FragmentTable.take?, hg]; rfl
  | some s =>
    rw [take?_of_get? hg, isComplete, hg, Option.isSome_map]
    rfl

/-- What a table answers after any calls, and what the next one is answered if it adds a fragment,
is read off the fragments that are live. A message is complete when it has a fragment of every
number; one that has no numbers never is. -/
theorem answers_of_history (maxAge : Nat) (history : List Call) :
    {key | live maxAge key history ≠ []}.encard = (after maxAge history).pending ∧
      (∀ key, (after maxAge history).received key = distinct (live maxAge key history)) ∧
      (∀ now key number fragment,
        ((after maxAge history).add now key number fragment).2 =
          distinct (live maxAge key (.add now key number fragment :: history))) ∧
      (∀ key, (after maxAge history).isComplete key = true ↔
        0 < key.total ∧ Complete (live maxAge key history) key.total) ∧
      (∀ key, ((after maxAge history).take? key).map Prod.fst =
        if (after maxAge history).isComplete key then
          some (joined (live maxAge key history) key.total)
        else none) := by
  have h := recalls_after maxAge history
  have htake : ∀ key, (after maxAge history).take? key =
      if 0 < key.total ∧ Complete (live maxAge key history) key.total then
        some (joined (live maxAge key history) key.total, (after maxAge history).erase key)
      else none := by
    intro key
    rw [h.take?]
    by_cases hall : 0 < key.total ∧ Complete (live maxAge key history) key.total
    · rw [if_pos (live_and_complete.mpr hall), if_pos hall, join_recent hall.1]
    · rw [if_neg (live_and_complete.not.mpr hall), if_neg hall]
  have hcomplete : ∀ key, (after maxAge history).isComplete key = true ↔
      0 < key.total ∧ Complete (live maxAge key history) key.total := by
    intro key
    rw [isComplete_eq_isSome, htake]
    split
    · exact iff_of_true rfl ‹_›
    · exact iff_of_false Bool.false_ne_true ‹_›
  refine ⟨h.encard_eq_pending, fun _ => h.received, fun now key number fragment => ?_, hcomplete,
    fun key => ?_⟩
  · exact answer_add.trans (recalls_after maxAge (.add now key number fragment :: history)).received
  · rw [htake]
    simp only [hcomplete]
    split <;> rfl

/-- A message that has no numbers is not complete, though no number is missing. -/
theorem not_complete_of_no_numbers :
    Complete (live 60 ⟨"1", some 'A', 0⟩ []) 0 ∧
      (after 60 []).isComplete ⟨"1", some 'A', 0⟩ = false :=
  ⟨fun number hpos hle => absurd (hpos.trans hle) (by decide), rfl⟩

end FragmentTable

end Transponder
