import Transponder.Report.Cell

/-!
# Reading comma-separated values

`Csv.fields?` takes a line apart into its fields as readers of comma-separated values do. A field
between quotes may hold anything, with its quotes doubled; any other field holds no comma, no quote
and no line break. A line that was put together from such fields is read back as them
(`fields?_intercalate`).
-/

namespace Transponder.Csv

/-- A field of a line, and whether it stands between quotes. -/
structure Field where
  isQuoted : Bool
  text : List Char
deriving DecidableEq

/-- What a reader has last seen. -/
inductive Place where
  /-- The comma in front of a field, or nothing yet. -/
  | start
  /-- A character of a field without quotes. -/
  | bare
  /-- A part of a field between quotes. -/
  | quoted
  /-- A quote that ends a field, unless another one follows. -/
  | closed
deriving DecidableEq

/-- A character more in front of the field that is being read. -/
def consChar (c : Char) : Field × List Field → Field × List Field
  | (field, fields) => ({ field with text := c :: field.text }, fields)

/-- The field that ends here, and those behind it. -/
def endField (isQuoted : Bool) : Field × List Field → Field × List Field
  | (field, fields) => (⟨isQuoted, []⟩, field :: fields)

/-- The rest of the field that is being read, and the fields behind it. -/
def read : Place → List Char → Option (Field × List Field)
  | .quoted, [] => none
  | place, [] => some (⟨place = .closed, []⟩, [])
  | .quoted, c :: cs =>
    if c = '"' then read .closed cs else (read .quoted cs).map (consChar c)
  | .closed, c :: cs =>
    if c = ',' then (read .start cs).map (endField true)
    else if c = '"' then (read .quoted cs).map (consChar c)
    else none
  | place, c :: cs =>
    if c = ',' then (read .start cs).map (endField false)
    else if c = '"' then if place = .start then read .quoted cs else none
    else if c = '\r' || c = '\n' then none
    else (read .bare cs).map (consChar c)

/-- The fields of a line. -/
def fields? (cs : List Char) : Option (List Field) :=
  (read .start cs).map fun (field, fields) => field :: fields

/-- A text that may stand without quotes. -/
def IsBare (cs : List Char) : Prop :=
  ∀ c ∈ cs, c ≠ ',' ∧ c ≠ '"' ∧ c ≠ '\r' ∧ c ≠ '\n'

/-- The characters of a field in a line. -/
def Field.chars (f : Field) : List Char :=
  if f.isQuoted then (Cell.quotedText (String.ofList f.text)).toList else f.text

variable {cs rest : List Char} {f : Field}

/-! ## One field -/

/-- The characters of a text in front of the field that is being read. -/
def consChars (cs : List Char) (read : Field × List Field) : Field × List Field :=
  cs.foldr consChar read

theorem consChars_mk (cs text : List Char) (isQuoted : Bool) (fields : List Field) :
    consChars cs (⟨isQuoted, text⟩, fields) = (⟨isQuoted, cs ++ text⟩, fields) := by
  induction cs with
  | nil => rfl
  | cons c cs ih =>
    show consChar c (consChars cs (⟨isQuoted, text⟩, fields)) = _
    rw [ih]
    rfl

theorem read_bare (h : IsBare cs) :
    read .bare (cs ++ rest) = (read .bare rest).map (consChars cs) := by
  induction cs with
  | nil => exact (congrFun Option.map_id _).symm
  | cons c cs ih =>
    obtain ⟨⟨hcomma, hquote, hreturn, hfeed⟩, hcs⟩ := List.forall_mem_cons.mp h
    have hbreak : ¬(decide (c = '\r') || decide (c = '\n')) = true := by simp [hreturn, hfeed]
    rw [List.cons_append, read, if_neg hcomma, if_neg hquote, if_neg hbreak, ih hcs,
      Option.map_map]
    · rfl
    all_goals exact fun hplace => nomatch hplace

theorem read_quoted (cs rest : List Char) :
    read .quoted (cs.flatMap (fun c => if c = '"' then ['"', '"'] else [c]) ++ '"' :: rest) =
      (read .closed rest).map (consChars cs) := by
  induction cs with
  | nil =>
    rw [List.flatMap_nil, List.nil_append, read, if_pos rfl]
    exact (congrFun Option.map_id _).symm
  | cons c cs ih =>
    rw [List.flatMap_cons, List.append_assoc]
    by_cases hc : c = '"'
    · rw [if_pos hc, List.cons_append, List.cons_append, List.nil_append, read, if_pos rfl, read,
        if_neg (by decide), if_pos rfl, ih, Option.map_map, hc]
      rfl
    · rw [if_neg hc, List.cons_append, List.nil_append, read, if_neg hc, ih, Option.map_map]
      rfl

theorem read_start (h : IsBare cs) (hrest : rest.head? ≠ some '"') :
    read .start (cs ++ rest) = (read .bare rest).map (consChars cs) := by
  rw [← read_bare h]
  cases hcs : cs ++ rest with
  | nil => rfl
  | cons c ds =>
    have hquote : c ≠ '"' := by
      cases cs with
      | nil =>
        rintro rfl
        rw [List.nil_append] at hcs
        rw [hcs] at hrest
        exact hrest rfl
      | cons d cs =>
        rw [List.cons_append] at hcs
        obtain ⟨rfl, -⟩ := List.cons.inj hcs
        exact (h d List.mem_cons_self).2.1
    rw [read, read, if_neg hquote, if_neg hquote]
    all_goals exact fun hplace => nomatch hplace

/-- A text without quotes is bare. -/
def Field.WellFormed (f : Field) : Prop :=
  f.isQuoted = false → IsBare f.text

theorem read_chars (h : f.WellFormed) (rest : List Char) (hrest : rest.head? ≠ some '"') :
    read .start (f.chars ++ rest) =
      (read (if f.isQuoted then .closed else .bare) rest).map (consChars f.text) := by
  obtain ⟨isQuoted, text⟩ := f
  cases isQuoted with
  | false => exact read_start (h rfl) hrest
  | true =>
    rw [if_pos rfl, ← read_quoted, Field.chars, if_pos rfl, Cell.quotedText, String.toList_ofList,
      String.toList_ofList, List.cons_append, List.cons_append, List.append_assoc,
      List.singleton_append, read, if_neg (by decide), if_pos rfl, if_pos rfl]
    all_goals exact fun hplace => nomatch hplace

theorem read_last (h : f.WellFormed) : read .start f.chars = some (f, []) := by
  have hread := read_chars h [] (fun hc => nomatch hc)
  rw [List.append_nil] at hread
  rw [hread]
  obtain ⟨isQuoted, text⟩ := f
  have hfield := consChars_mk text [] isQuoted []
  rw [List.append_nil] at hfield
  cases isQuoted <;> exact congrArg some hfield

theorem read_comma (h : f.WellFormed) (rest : List Char) :
    read .start (f.chars ++ ',' :: rest) = (fields? rest).map fun fields => (f, fields) := by
  have hcomma : (',' :: rest).head? ≠ some '"' := by
    rw [List.head?_cons]
    decide
  rw [read_chars h _ hcomma, fields?, Option.map_map]
  obtain ⟨isQuoted, text⟩ := f
  have hfield : ∀ next : Field × List Field,
      consChars text (endField isQuoted next) = (⟨isQuoted, text⟩, next.1 :: next.2) := by
    intro next
    rw [endField, consChars_mk, List.append_nil]
  cases isQuoted with
  | false =>
    rw [if_neg Bool.false_ne_true, read, if_pos rfl, Option.map_map]
    · exact congrArg (Option.map · _) (funext hfield)
    all_goals exact fun hplace => nomatch hplace
  | true =>
    rw [if_pos rfl, read, if_pos rfl, Option.map_map]
    exact congrArg (Option.map · _) (funext hfield)

/-! ## A line -/

/-- The fields that a line was put together from are read back. -/
theorem fields?_intercalate : ∀ fields : List Field, fields ≠ [] → (∀ f ∈ fields, f.WellFormed) →
    fields? (List.intercalate [','] (fields.map Field.chars)) = some fields
  | [], h, _ => absurd rfl h
  | [f], _, h => by
    rw [List.map_singleton, List.intercalate_singleton, fields?, read_last (h f List.mem_cons_self)]
    rfl
  | f :: next :: fields, _, h => by
    have ih := fields?_intercalate (next :: fields) (List.cons_ne_nil _ _) fun g hm =>
      h g (List.mem_cons_of_mem _ hm)
    rw [List.map_cons, List.map_cons, List.intercalate_cons_cons, ← List.map_cons,
      List.append_assoc, List.singleton_append, fields?, read_comma (h f List.mem_cons_self), ih]
    rfl

example : fields? "a,\"b,\"\"c\"\"\",,".toList =
    some [⟨false, ['a']⟩, ⟨true, "b,\"c\"".toList⟩, ⟨false, []⟩, ⟨false, []⟩] := by
  decide

end Transponder.Csv
