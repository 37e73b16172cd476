import Leasework.Proofs.Text.Encoding

/-!
# `Leasework.Proofs.Text.Decoding`: texts from bytes

Any bytes can be read as a text with replacements. `Reads` says how, without a decoder: where a
character stands it is read, where a character only begins as many bytes as begin one are replaced,
and a byte that begins none is replaced by itself. There always is such a text (`exists_reads`), and
the decoder finds it (`Reads.decoded_eq`), so there is only one.

`decodeLossy_eq_iff` and `decode?_eq_some_iff` say what the two ways to decode come to: the one
gives the text that the bytes say with replacements, the other gives a text just from its own bytes.
-/

set_option autoImplicit false

namespace Leasework.Text

variable {piece bytes : List UInt8} {p : Partial} {d : Decoder}

/-! ### What bytes do to the decoder -/

namespace Decoder

/-- A first byte is remembered. -/
theorem push_begins {b : UInt8} {p : Partial} (between : d.pending = none)
    (begins : lead b = .begins p) : d.push b = { d with pending := some p } := by
  simp only [push, between, first, begins]

/-- A byte that is a character is read. -/
theorem push_whole {b : UInt8} {c : Char} (between : d.pending = none) (whole : lead b = .whole c) :
    d.push b = { d with done := c :: d.done } := by
  simp only [push, between, first, whole]

/-- A stray byte is replaced. -/
theorem push_stray {b : UInt8} (between : d.pending = none) (stray : lead b = .stray) :
    d.push b = d.replace := by
  simp only [push, between, first, stray]

/-- A byte that is in order goes on with the character. -/
theorem push_within {p : Partial} {x : Nat} (hx : x < 0x40) (pending : d.pending = some p)
    (within : p.low ≤ tailByte x ∧ tailByte x ≤ p.high) :
    d.push (tailByte x) =
      if p.owed ≤ 1 then { d with done := Char.ofNat (p.bits * 64 + x) :: d.done, pending := none }
      else { d with pending := some ⟨p.owed - 1, 0x80, 0xBF, p.bits * 64 + x⟩ } := by
  simp only [push, pending, if_pos within, toNat_tailByte hx, Nat.add_sub_cancel_left]

/-- A byte that is out of order cuts the character off. -/
theorem push_outside {p : Partial} {b : UInt8} (pending : d.pending = some p)
    (outside : ¬ (p.low ≤ b ∧ b ≤ p.high)) : d.push b = d.replace.push b := by
  simp only [push, pending, if_neg outside]
  rfl

end Decoder

/-- The decoder remembers what it has to. -/
theorem Begun.foldl_push (begun : Begun piece p) (between : d.pending = none) :
    piece.foldl Decoder.push d = { d with pending := some p } := by
  induction begun with
  | two ha least => exact Decoder.push_begins between (lead_two ha least)
  | three ha => exact Decoder.push_begins between (lead_three ha)
  | four ha => exact Decoder.push_begins between (lead_four ha)
  | next begun hx within owed ih =>
    rw [List.foldl_append, ih, List.foldl_cons, List.foldl_nil,
      Decoder.push_within hx rfl within, if_neg (by omega)]

/-- The decoder takes the bytes of a character for the character. -/
theorem foldl_push_utf8EncodeChar (c : Char) (between : d.pending = none) :
    (String.utf8EncodeChar c).foldl Decoder.push d = { d with done := c :: d.done } := by
  obtain ⟨a, ha, rfl, one⟩ | ⟨piece, p, x, begun, hx, within, owed, rfl, more⟩ := (encoded c).last
  · rw [one, List.foldl_cons, List.foldl_nil, Decoder.push_whole between (lead_one ha)]
  · rw [more, List.foldl_append, begun.foldl_push between, List.foldl_cons, List.foldl_nil,
      Decoder.push_within hx rfl within, if_pos (by omega), between]

/-! ### Texts from any bytes -/

/-- What a text is made of that is read from bytes: characters, and replacements for what is none.
The last value says whether there are any of these. -/
inductive Reads : List UInt8 → List Char → Bool → Prop where
  /-- There are no more bytes. -/
  | done : Reads [] [] false
  /-- A character. -/
  | whole (c : Char) {rest : List UInt8} {cs : List Char} {m : Bool} (next : Reads rest cs m) :
      Reads (String.utf8EncodeChar c ++ rest) (c :: cs) m
  /-- As many bytes as begin a character, which does not go on. -/
  | cut {piece rest : List UInt8} {cs : List Char} {m : Bool} (begins : Begins piece)
      (nonempty : piece ≠ []) (unfinished : ∀ c, piece ≠ String.utf8EncodeChar c)
      (longest : ∀ b ∈ rest.head?, ¬ Begins (piece ++ [b])) (next : Reads rest cs m) :
      Reads (piece ++ rest) ('\uFFFD' :: cs) true
  /-- A byte that begins no character. -/
  | stray {b : UInt8} {rest : List UInt8} {cs : List Char} {m : Bool} (stray : ¬ Begins [b])
      (next : Reads rest cs m) : Reads (b :: rest) ('\uFFFD' :: cs) true

/-- A character that does not go on is replaced. -/
theorem Decoder.finish_foldl_cut {rest : List UInt8} (pending : d.pending = some p)
    (outside : ∀ b ∈ rest.head?, ¬ (p.low ≤ b ∧ b ≤ p.high)) :
    (rest.foldl Decoder.push d).finish = (rest.foldl Decoder.push d.replace).finish := by
  cases rest with
  | nil => simp [Decoder.finish, pending, Decoder.replace]
  | cons b rest =>
    rw [List.foldl_cons, Decoder.push_outside pending (outside b rfl), List.foldl_cons]

/-- The decoder reads what the bytes say. -/
theorem Reads.finish_foldl {cs : List Char} {m : Bool} (reads : Reads bytes cs m)
    (between : d.pending = none) :
    (bytes.foldl Decoder.push d).finish = ⟨cs.reverse ++ d.done, none, d.malformed || m⟩ := by
  induction reads generalizing d with
  | done =>
    obtain ⟨done, pending, malformed⟩ := d
    subst between
    simp [Decoder.finish]
  | whole c next ih =>
    rw [List.foldl_append, foldl_push_utf8EncodeChar c between,
      ih (d := { d with done := c :: d.done }) between]
    simp
  | cut begins nonempty unfinished longest next ih =>
    -- The next byte would make the piece longer if it were in the range that is remembered.
    obtain ⟨p, begun⟩ := begins.exists_begun nonempty unfinished
    rw [List.foldl_append, begun.foldl_push between,
      Decoder.finish_foldl_cut rfl fun b h within => longest b h (begun.begins within), ih rfl]
    simp [Decoder.replace]
  | stray stray next ih =>
    rw [List.foldl_cons, Decoder.push_stray between (lead_of_not_begins stray), ih rfl]
    simp [Decoder.replace]

/-- What bytes begin with can be made as long as possible. -/
theorem exists_longest {P : List UInt8 → Prop} (bytes : List UInt8) (h : P piece) :
    ∃ piece' rest, piece ++ bytes = piece' ++ rest ∧ piece <+: piece' ∧ P piece' ∧
      ∀ b ∈ rest.head?, ¬ P (piece' ++ [b]) := by
  induction bytes generalizing piece with
  | nil => exact ⟨piece, [], rfl, List.prefix_rfl, h, nofun⟩
  | cons b bytes ih =>
    by_cases more : P (piece ++ [b])
    · obtain ⟨piece', rest, same, start, hpiece', longest⟩ := ih more
      rw [List.append_assoc, List.singleton_append] at same
      exact ⟨piece', rest, same, (List.prefix_append _ _).trans start, hpiece', longest⟩
    · refine ⟨piece, b :: bytes, rfl, List.prefix_rfl, h, ?_⟩
      rintro _ ⟨⟩
      exact more

/-- Of any bytes, some text is read. -/
theorem exists_reads (bytes : List UInt8) : ∃ cs m, Reads bytes cs m := by
  induction length : bytes.length using Nat.strongRecOn generalizing bytes with
  | ind n ih =>
    cases bytes with
    | nil => exact ⟨[], false, .done⟩
    | cons b bytes =>
      rw [List.length_cons] at length
      by_cases begins : Begins [b]
      · obtain ⟨piece, rest, same, start, hpiece, longest⟩ := exists_longest bytes begins
        have fewer := congrArg List.length same
        have nonempty := start.length_le
        simp only [List.length_append, List.length_singleton] at fewer nonempty
        obtain ⟨cs, m, reads⟩ := ih rest.length (by omega) rest rfl
        rw [← List.singleton_append, same]
        -- The longest piece is a character, or one that does not go on.
        by_cases whole : ∃ c, piece = String.utf8EncodeChar c
        · obtain ⟨c, rfl⟩ := whole
          exact ⟨_, _, .whole c reads⟩
        · exact ⟨_, _, .cut hpiece (List.length_pos_iff.mp nonempty)
            (fun c same => whole ⟨c, same⟩) longest reads⟩
      · obtain ⟨cs, m, reads⟩ := ih bytes.length (by omega) bytes rfl
        exact ⟨_, _, .stray begins reads⟩

/-- Without replacements, the bytes are those of the text. -/
theorem Reads.eq_flatMap {cs : List Char} {m : Bool} (reads : Reads bytes cs m)
    (faultless : m = false) : bytes = cs.flatMap String.utf8EncodeChar := by
  induction reads with
  | done => rfl
  | whole c next ih => rw [List.flatMap_cons, ← ih faultless]
  | cut begins nonempty unfinished longest next ih => cases faultless
  | stray stray next ih => cases faultless

/-- The bytes of a text are read without replacements. -/
theorem reads_flatMap (cs : List Char) : Reads (cs.flatMap String.utf8EncodeChar) cs false := by
  induction cs with
  | nil => exact .done
  | cons c cs ih =>
    rw [List.flatMap_cons]
    exact .whole c ih

/-- The decoder ends with what is read. -/
theorem Reads.decoded_eq {cs : List Char} {m : Bool} (reads : Reads bytes cs m) :
    decoded bytes = ⟨cs.reverse, none, m⟩ := by
  rw [decoded, reads.finish_foldl rfl]
  simp [Decoder.start]

/-- A text is read with replacements from bytes if and only if that is what they say. -/
theorem decodeLossy_eq_iff {s : String} :
    decodeLossy bytes = s ↔ ∃ m, Reads bytes s.toList m := by
  constructor
  · rintro rfl
    obtain ⟨cs, m, reads⟩ := exists_reads bytes
    refine ⟨m, ?_⟩
    simpa [decodeLossy, reads.decoded_eq] using reads
  · rintro ⟨m, reads⟩
    simp [decodeLossy, reads.decoded_eq]

/-! ### Texts from the bytes of texts -/

/-- The bytes that are left are put behind those that were gone through. -/
theorem toList_loop (bytes : ByteArray) (i : Nat) (gone : List UInt8) :
    ByteArray.toList.loop bytes i gone = gone.reverse ++ bytes.data.toList.drop i := by
  induction i, gone using ByteArray.toList.loop.induct bytes with
  | case1 i gone inside ih =>
    have here : i < bytes.data.toList.length := inside
    have byte : bytes.get! i = bytes.data.toList[i] := by
      simpa [ByteArray.get!] using getElem!_pos bytes.data i inside
    rw [ByteArray.toList.loop, if_pos inside, ih, List.drop_eq_getElem_cons here, byte,
      List.reverse_cons, List.append_assoc, List.singleton_append]
  | case2 i gone outside =>
    have ended : bytes.data.toList.length ≤ i := Nat.not_lt.mp outside
    rw [ByteArray.toList.loop, if_neg outside, List.drop_of_length_le ended, List.append_nil]

/-- The bytes of a text are those of its characters. -/
theorem encode_eq_flatMap (s : String) : encode s = s.toList.flatMap String.utf8EncodeChar := by
  have data : s.toUTF8.data = (s.toList.flatMap String.utf8EncodeChar).toArray := by
    show s.toByteArray.data = _
    rw [← String.utf8Encode_toList, List.utf8Encode, List.data_toByteArray]
  rw [encode, ByteArray.toList, toList_loop, data, List.reverse_nil, List.nil_append,
    List.drop_zero]

/-- A text is read from bytes without replacements if and only if they are its bytes. -/
theorem decode?_eq_some_iff {s : String} : decode? bytes = some s ↔ encode s = bytes := by
  rw [encode_eq_flatMap]
  constructor
  · intro decodes
    obtain ⟨cs, m, reads⟩ := exists_reads bytes
    cases m with
    | true => simp [decode?, reads.decoded_eq] at decodes
    | false =>
      simp only [decode?, reads.decoded_eq] at decodes
      cases decodes
      simpa using (reads.eq_flatMap rfl).symm
  · rintro rfl
    simp [decode?, (reads_flatMap s.toList).decoded_eq]

end Leasework.Text
