import Leasework.Proofs.Json.Literals

/-!
# `Leasework.Proofs.Json.RoundTrip`: documents in JSON

What is written of a document is read back as the document (`read?_render`), if JSON can say the
document at all (`Sayable`): it has numbers that fit 64 bits and no others, it has no dates, and no
table uses a name twice.

The writer appends to a text, so what it appends is first described by itself (`letters`). The
reader has fuel, and the text of a document is fuel enough for it (`value?_letters`): each value,
each bracket and each comma takes one character at least.
-/

set_option autoImplicit false

namespace Leasework.Json

/-! ### What is written -/

mutual

/-- The characters of a document. -/
def letters : Document → List Char
  | .null => "null".toList
  | .flag b => (if b then "true" else "false").toList
  | .integer n => (toString n).toList
  | .real literal => literal.toList
  | .text s => quotedLetters s
  | .moment literal => quotedLetters literal
  | .list items => '[' :: (itemLetters true items ++ [']'])
  | .table fields => '\x7b' :: (fieldLetters true fields ++ ['\x7d'])

/-- The characters of values with commas between them. -/
def itemLetters (first : Bool) : List Document → List Char
  | [] => []
  | d :: rest => (if first then [] else [',']) ++ (letters d ++ itemLetters false rest)

/-- The characters of named values with commas between them. -/
def fieldLetters (first : Bool) : List (String × Document) → List Char
  | [] => []
  | (name, d) :: rest =>
    (if first then [] else [',']) ++
      (quotedLetters name ++ ':' :: (letters d ++ fieldLetters false rest))

end

mutual

/-- A document is written at the end of a text. -/
theorem toList_pushDocument (out : String) (d : Document) :
    (pushDocument out d).toList = out.toList ++ letters d := by
  cases d with
  | null => simp [pushDocument, letters]
  | flag b => simp [pushDocument, letters]
  | integer n => simp [pushDocument, letters]
  | real literal => simp [pushDocument, letters]
  | text s => simp [pushDocument, letters, toList_pushQuoted]
  | moment literal => simp [pushDocument, letters, toList_pushQuoted]
  | list items => simp [pushDocument, letters, toList_pushItems _ true items]
  | table fields => simp [pushDocument, letters, toList_pushFields _ true fields]

/-- Values are written at the end of a text. -/
theorem toList_pushItems (out : String) (first : Bool) (items : List Document) :
    (pushItems out first items).toList = out.toList ++ itemLetters first items := by
  cases items with
  | nil => simp [pushItems, itemLetters]
  | cons d rest =>
    rw [pushItems, toList_pushItems _ false rest, toList_pushDocument _ d]
    cases first <;> simp [itemLetters]

/-- Named values are written at the end of a text. -/
theorem toList_pushFields (out : String) (first : Bool) (fields : List (String × Document)) :
    (pushFields out first fields).toList = out.toList ++ fieldLetters first fields := by
  cases fields with
  | nil => simp [pushFields, fieldLetters]
  | cons field rest =>
    obtain ⟨name, d⟩ := field
    rw [pushFields, toList_pushFields _ false rest, toList_pushDocument _ d]
    cases first <;> simp [fieldLetters, toList_pushQuoted]

end

/-- A document is written as its characters. -/
theorem toList_render (d : Document) : (render d).toList = letters d := by
  simp [render, toList_pushDocument]

/-- Further values come after a comma. -/
theorem itemLetters_false_cons (d : Document) (rest : List Document) :
    itemLetters false (d :: rest) = ',' :: itemLetters true (d :: rest) := by
  simp [itemLetters]

/-- Further named values come after a comma. -/
theorem fieldLetters_false_cons (field : String × Document) (rest : List (String × Document)) :
    fieldLetters false (field :: rest) = ',' :: fieldLetters true (field :: rest) := by
  simp [fieldLetters]

/-! ### What is read -/

/-- The documents that JSON can say. -/
inductive Sayable : Document → Prop where
  /-- No value. -/
  | null : Sayable .null
  /-- A truth value. -/
  | flag (b : Bool) : Sayable (.flag b)
  /-- A whole number that fits 64 bits. -/
  | integer {n : Int} (fits : Fits n) : Sayable (.integer n)
  /-- Any text. -/
  | text (s : String) : Sayable (.text s)
  /-- A list of such documents. -/
  | list {items : List Document} (each : ∀ d ∈ items, Sayable d) : Sayable (.list items)
  /-- A table of such documents, with each name once. -/
  | table {fields : List (String × Document)} (distinct : (fields.map (·.1)).Nodup)
      (each : ∀ field ∈ fields, Sayable field.2) : Sayable (.table fields)

/-- A number does not go on in what follows it. -/
def Stops (rest : List Char) : Prop := ∀ c ∈ rest.head?, isNumberPart c = false

/-- A document is read from its characters, whatever follows it, with as much fuel as there are
characters. -/
def ReadBack (d : Document) : Prop :=
  ∀ fuel rest, (letters d).length ≤ fuel → Stops rest →
    value? fuel (letters d ++ rest) = some (d, rest)

/-- Nothing is skipped where no space stands. -/
theorem skipSpace_cons {c : Char} (h : isSpace c = false) (cs : List Char) :
    skipSpace (c :: cs) = c :: cs := by
  simp [skipSpace, h]

/-- No space stands in a number. -/
theorem isSpace_of_isNumberPart {c : Char} (part : isNumberPart c = true) : isSpace c = false := by
  by_contra space
  simp only [isSpace, Bool.or_eq_true, decide_eq_true_eq, Bool.not_eq_false] at space
  obtain ((rfl | rfl) | rfl) | rfl := space <;> exact absurd part (by decide)

/-- A whole number is written in at least one character, and the first one may stand in a number. -/
theorem toString_begin {n : Int} (fits : Fits n) :
    ∃ c cs, (toString n).toList = c :: cs ∧ isNumberPart c = true := by
  cases written : (toString n).toList with
  | nil =>
    have read := number?_toString fits
    rw [written] at read
    cases read
  | cons c cs =>
    exact ⟨c, cs, rfl, isNumberPart_of_mem_toString (written ▸ List.mem_cons_self : c ∈ _)⟩

/-- What begins a document is no space and does not end a list. -/
theorem letters_begin {d : Document} (h : Sayable d) :
    ∃ c cs, letters d = c :: cs ∧ isSpace c = false ∧ c ≠ ']' := by
  cases h with
  | null => exact ⟨'n', _, rfl, rfl, by decide⟩
  | flag b => cases b <;> exact ⟨_, _, rfl, rfl, by decide⟩
  | integer fits =>
    obtain ⟨c, cs, written, part⟩ := toString_begin fits
    refine ⟨c, cs, written, isSpace_of_isNumberPart part, ?_⟩
    rintro rfl
    exact absurd part (by decide)
  | text s => exact ⟨'"', _, rfl, rfl, by decide⟩
  | list each => exact ⟨'[', _, rfl, rfl, by decide⟩
  | table distinct each => exact ⟨'\x7b', _, rfl, rfl, by decide⟩

/-- What stops a number is left of it. -/
theorem takeWhile_append_of_stops {literal rest : List Char}
    (parts : ∀ c ∈ literal, isNumberPart c = true) (stops : Stops rest) :
    (literal ++ rest).takeWhile isNumberPart = literal ∧
      (literal ++ rest).dropWhile isNumberPart = rest := by
  rw [List.takeWhile_append_of_pos parts, List.dropWhile_append_of_pos parts]
  cases rest with
  | nil => simp
  | cons c cs =>
    have stop : isNumberPart c = false := stops c rfl
    simp [stop]

/-- A character that cannot stand in a number stops it. -/
theorem stops_cons {c : Char} (h : isNumberPart c = false) (cs : List Char) : Stops (c :: cs) := by
  rintro _ ⟨⟩
  exact h

/-- Reading takes some fuel, which the text of a document always gives. -/
theorem readBack_of_succ {d : Document} (h : Sayable d)
    (succ : ∀ fuel rest, (letters d).length ≤ fuel + 1 → Stops rest →
      value? (fuel + 1) (letters d ++ rest) = some (d, rest)) : ReadBack d := by
  rintro (_ | fuel) rest fueled stops
  · obtain ⟨c, cs, written, -⟩ := letters_begin h
    rw [written] at fueled
    exact absurd fueled (Nat.not_succ_le_zero _)
  · exact succ fuel rest fueled stops

/-- A whole number is read up to what follows it. -/
theorem value?_toString {n : Int} (fits : Fits n) (fuel : Nat) {rest : List Char}
    (stops : Stops rest) :
    value? (fuel + 1) ((toString n).toList ++ rest) = some (.integer n, rest) := by
  obtain ⟨c, cs, written, part⟩ := toString_begin fits
  obtain ⟨taken, left⟩ :=
    takeWhile_append_of_stops (fun c h => isNumberPart_of_mem_toString (n := n) h) stops
  have read := number?_toString fits
  rw [written] at read
  rw [written, List.cons_append] at taken left ⊢
  rw [value?, skipSpace_cons (isSpace_of_isNumberPart part)]
  split
  case h_7 => simp [taken, left, read]
  -- No other kind of value begins like a number.
  all_goals
    next begins =>
      obtain ⟨rfl, -⟩ := List.cons.inj begins
      exact absurd part (by decide)

/-- Values are read back up to the closing bracket. -/
theorem items?_itemLetters {items : List Document} (nonempty : items ≠ [])
    (each : ∀ d ∈ items, ReadBack d) (fuel : Nat) (rest : List Char) (acc : List Document)
    (fueled : (itemLetters true items).length < fuel) :
    items? fuel (itemLetters true items ++ ']' :: rest) acc
      = some (acc.reverse ++ items, rest) := by
  induction items generalizing fuel acc with
  | nil => exact absurd rfl nonempty
  | cons d items ih =>
    cases fuel with
    | zero => exact absurd fueled (Nat.not_lt_zero _)
    | succ fuel =>
      have first := each d List.mem_cons_self
      have split : itemLetters true (d :: items) = letters d ++ itemLetters false items := by
        simp [itemLetters]
      rw [split, List.length_append] at fueled
      rw [split, List.append_assoc, items?]
      -- A bracket follows the last value, and a comma each of the others.
      cases items with
      | nil =>
        rw [itemLetters, List.nil_append, first fuel _ (by omega) (stops_cons rfl rest)]
        simp [skipSpace_cons (c := ']') rfl]
      | cons e items =>
        rw [itemLetters_false_cons, List.length_cons] at fueled
        rw [itemLetters_false_cons, List.cons_append, first fuel _ (by omega) (stops_cons rfl _)]
        simp only [skipSpace_cons (c := ',') rfl]
        rw [ih (List.cons_ne_nil e items) (fun d h => each d (List.mem_cons_of_mem _ h)) fuel
          (d :: acc) (by omega), List.reverse_cons, List.append_assoc, List.singleton_append]

/-- A name that is new is put in front. -/
theorem putField_of_not_mem {name : String} {acc : List (String × Document)}
    (fresh : name ∉ acc.map (·.1)) (d : Document) : putField name d acc = (name, d) :: acc := by
  rw [putField, List.filter_eq_self.mpr]
  intro field h
  have : field.1 ≠ name := fun same => fresh (same ▸ List.mem_map_of_mem h)
  simpa using this

/-- Named values are read back up to the closing brace. -/
theorem fields?_fieldLetters {fields : List (String × Document)} (nonempty : fields ≠ [])
    (each : ∀ field ∈ fields, ReadBack field.2) (fuel : Nat) (rest : List Char)
    (acc : List (String × Document)) (distinct : ((acc.reverse ++ fields).map (·.1)).Nodup)
    (fueled : (fieldLetters true fields).length < fuel) :
    fields? fuel (fieldLetters true fields ++ '\x7d' :: rest) acc
      = some (acc.reverse ++ fields, rest) := by
  induction fields generalizing fuel acc with
  | nil => exact absurd rfl nonempty
  | cons field fields ih =>
    obtain ⟨name, d⟩ := field
    cases fuel with
    | zero => exact absurd fueled (Nat.not_lt_zero _)
    | succ fuel =>
      have first : ReadBack d := each (name, d) List.mem_cons_self
      have split : fieldLetters true ((name, d) :: fields)
          = '"' :: (name.toList.flatMap escape
            ++ '"' :: ':' :: (letters d ++ fieldLetters false fields)) := by
        simp [fieldLetters, quotedLetters]
      -- Names are distinct, so no value that was read before is replaced.
      have fresh : name ∉ acc.map (·.1) := fun old => by
        rw [List.map_append, List.nodup_append] at distinct
        exact distinct.2.2 name (by simpa using old) name List.mem_cons_self rfl
      simp only [split, List.length_cons, List.length_append] at fueled
      rw [split, List.cons_append, List.append_assoc, List.cons_append, List.cons_append,
        List.append_assoc, fields?]
      simp only [skipSpace_cons (c := '"') rfl, literalTail_quotedLetters,
        skipSpace_cons (c := ':') rfl]
      cases fields with
      | nil =>
        rw [fieldLetters, List.nil_append, first fuel _ (by omega) (stops_cons rfl rest)]
        simp [skipSpace_cons (c := '\x7d') rfl, putField_of_not_mem fresh]
      | cons field fields =>
        rw [fieldLetters_false_cons, List.length_cons] at fueled
        rw [fieldLetters_false_cons, List.cons_append, first fuel _ (by omega) (stops_cons rfl _)]
        simp only [skipSpace_cons (c := ',') rfl, putField_of_not_mem fresh]
        rw [ih (List.cons_ne_nil field fields) (fun f h => each f (List.mem_cons_of_mem _ h)) fuel
          ((name, d) :: acc) (by simpa using distinct) (by omega), List.reverse_cons,
          List.append_assoc, List.singleton_append]

/-- A document that JSON can say is read back. -/
theorem readBack_of_sayable {d : Document} (h : Sayable d) : ReadBack d := by
  induction h with
  | null =>
    refine readBack_of_succ .null fun fuel rest _ _ => ?_
    simp [letters, value?, skipSpace_cons (c := 'n') rfl]
  | flag b =>
    refine readBack_of_succ (.flag b) fun fuel rest _ _ => ?_
    cases b with
    | true => simp [letters, value?, skipSpace_cons (c := 't') rfl]
    | false => simp [letters, value?, skipSpace_cons (c := 'f') rfl]
  | integer fits =>
    refine readBack_of_succ (.integer fits) fun fuel rest _ stops => ?_
    rw [letters, value?_toString fits fuel stops]
  | text s =>
    refine readBack_of_succ (.text s) fun fuel rest _ _ => ?_
    simp [letters, quotedLetters, value?, skipSpace_cons (c := '"') rfl, literalTail_quotedLetters]
  | @list items each ih =>
    refine readBack_of_succ (.list each) fun fuel rest fueled _ => ?_
    rw [letters, List.length_cons, List.length_append, List.length_singleton] at fueled
    rw [letters, List.cons_append, List.append_assoc, List.singleton_append, value?,
      skipSpace_cons (c := '[') rfl]
    cases items with
    | nil => simp [itemLetters, skipSpace_cons (c := ']') rfl]
    | cons d items =>
      have read := items?_itemLetters (List.cons_ne_nil d items) ih fuel rest [] (by omega)
      -- The reader looks for a closing bracket first, and no value begins with one.
      obtain ⟨c, cs, written, space, bracket⟩ := letters_begin (each d List.mem_cons_self)
      have begins : itemLetters true (d :: items) ++ ']' :: rest
          = c :: (cs ++ (itemLetters false items ++ ']' :: rest)) := by
        simp [itemLetters, written]
      rw [begins] at read ⊢
      simp [skipSpace_cons space, bracket, read]
  | @table fields distinct each ih =>
    refine readBack_of_succ (.table distinct each) fun fuel rest fueled _ => ?_
    rw [letters, List.length_cons, List.length_append, List.length_singleton] at fueled
    rw [letters, List.cons_append, List.append_assoc, List.singleton_append, value?,
      skipSpace_cons (c := '\x7b') rfl]
    cases fields with
    | nil => simp [fieldLetters, skipSpace_cons (c := '\x7d') rfl]
    | cons field fields =>
      have read := fields?_fieldLetters (List.cons_ne_nil field fields) ih fuel rest [] distinct
        (by omega)
      obtain ⟨cs, begins⟩ : ∃ cs, fieldLetters true (field :: fields) ++ '\x7d' :: rest
          = '"' :: cs := ⟨_, by simp [fieldLetters, quotedLetters]; rfl⟩
      rw [begins] at read ⊢
      simp [skipSpace_cons (c := '"') rfl, read]

/-- What is written of a document is read back. -/
theorem read?_render {d : Document} (h : Sayable d) : read? (render d) = some d := by
  have back := readBack_of_sayable h ((letters d).length + 1) [] (by omega) (by simp [Stops])
  rw [List.append_nil] at back
  simp [read?, toList_render, back, skipSpace]

end Leasework.Json
