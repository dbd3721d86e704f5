/-
`EventStreamReader`: an event stream is cut into blocks at its blank lines by a `bufio.Scanner`.

The split function looks for a double CRLF in the whole buffer before it looks for a double LF. On a stream that mixes
the two line ends it therefore finds the first double newline or a later one, depending on how much of the stream the
buffer held at that moment, which is to say on how the underlying reader cuts it.

Results: `agrees_iff`, `search`, `segmentation`.
-/
import LuluExt.Lib.Scanner
import LuluExt.Transport.Sse.Event

namespace LuluExt.Sse.EventStreamReader

open Scanner

/-! ## The split function -/

def cr : UInt8 := 13
def lf : UInt8 := 10

def CrlfCrlf (data : Bytes) (i : ℕ) : Prop :=
  data[i]? = some cr ∧ data[i + 1]? = some lf ∧ data[i + 2]? = some cr ∧ data[i + 3]? = some lf

def LfLf (data : Bytes) (i : ℕ) : Prop := data[i]? = some lf ∧ data[i + 1]? = some lf

instance (data : Bytes) : DecidablePred (CrlfCrlf data) := fun _ => inferInstanceAs (Decidable (_ ∧ _))
instance (data : Bytes) : DecidablePred (LfLf data) := fun _ => inferInstanceAs (Decidable (_ ∧ _))

/-- position and length of a double newline; `none` for `(-1, 0)` -/
def containsDoubleNewline (data : Bytes) : Option (ℕ × ℕ) :=
  match (List.range (data.length - 3)).find? fun i => CrlfCrlf data i with
  | some i => some (i, 4)
  | none =>
    match (List.range (data.length - 1)).find? fun i => LfLf data i with
    | some i => some (i, 2)
    | none => none

/-- what `bufio.Scanner` calls: how far to advance and the block, `none` to ask for more -/
def split (data : Bytes) (atEOF : Bool) : Option (ℕ × Bytes) :=
  if atEOF = true ∧ data.length = 0 then none
  else
    match containsDoubleNewline data with
    | some (i, nLen) => some (i + nLen, data.take i)
    | none => if atEOF then some (data.length, data) else none

def minPosInt (a b : ℤ) : ℤ := if a < 0 ∨ b < 0 then 0 else if a < b then a else b

/-! ## The reader -/

inductive Error where
  | eof
  | tooLong
  | outOfFuel
deriving DecidableEq, Repr

def initBufferSize (maxBufferSize : ℤ) : ℕ := (minPosInt 4096 maxBufferSize).toNat

/-- the scanner of `NewEventStreamReader` on a stream that the underlying reader cuts in one way -/
def scanner (maxBufferSize : ℤ) (r : Cutting) (stream : Bytes) : Trace UInt8 :=
  scanAll split (initBufferSize maxBufferSize) maxBufferSize r stream

def stopError : Stop → Error
  | .eof => .eof
  | .tooLong => .tooLong
  | .outOfFuel => .outOfFuel

/-- the answers of `ReadEvent`, call after call, up to the first error -/
def readEvents (maxBufferSize : ℤ) (r : Cutting) (stream : Bytes) : List (Except Error Bytes) :=
  (scanner maxBufferSize r stream).tokens.map .ok ++ [.error (stopError (scanner maxBufferSize r stream).stop)]

/-! ## The leftmost double newline -/

def DoubleNewline (data : Bytes) (i : ℕ) : Prop := LfLf data i ∨ CrlfCrlf data i

instance (data : Bytes) : DecidablePred (DoubleNewline data) := fun _ => inferInstanceAs (Decidable (_ ∨ _))

def width (data : Bytes) (i : ℕ) : ℕ := if LfLf data i then 2 else 4

/-- position and length of the leftmost double newline -/
def first (data : Bytes) : Option (ℕ × ℕ) :=
  ((List.range data.length).find? fun i => DoubleNewline data i).map fun i => (i, width data i)

/-- the blocks of a stream: cut at the leftmost double newline, then what follows in the same way -/
def blocks (stream : Bytes) : List Bytes := splitAll first stream

/-- no double LF stands before the first double CRLF -/
def Unambiguous (data : Bytes) : Prop := ∀ i j, LfLf data i → CrlfCrlf data j → ∃ k < i, CrlfCrlf data k

/-! ### Searches -/

def First (p : ℕ → Prop) (i : ℕ) : Prop := p i ∧ ∀ j < i, ¬ p j

variable {i : ℕ}

section

variable {p : ℕ → Prop} [DecidablePred p] {n : ℕ}

theorem find_some_iff (hn : ∀ i, p i → i < n) : ((List.range n).find? fun i => p i) = some i ↔ First p i := by
  rw [List.find?_range_eq_some]
  simp only [decide_eq_true_eq, List.mem_range, Bool.not_eq_true', decide_eq_false_iff_not]
  exact ⟨fun h => ⟨h.1, h.2.2⟩, fun h => ⟨h.1, hn i h.1, h.2⟩⟩

theorem find_none_iff (hn : ∀ i, p i → i < n) : ((List.range n).find? fun i => p i) = none ↔ ∀ i, ¬ p i := by
  rw [List.find?_range_eq_none]
  simp only [Bool.not_eq_true', decide_eq_false_iff_not]
  exact ⟨fun h i hp => h i (hn i hp) hp, fun h i _ => h i⟩

end

variable {data : Bytes}

theorem CrlfCrlf.lt_length (h : CrlfCrlf data i) : i + 3 < data.length :=
  (List.getElem?_eq_some_iff.1 h.2.2.2).1

theorem LfLf.lt_length (h : LfLf data i) : i + 1 < data.length :=
  (List.getElem?_eq_some_iff.1 h.2).1

theorem not_both (hlf : LfLf data i) (hcrlf : CrlfCrlf data i) : False := by
  have hbyte := hlf.1.symm.trans hcrlf.1
  exact absurd hbyte (by decide)

theorem width_of_crlf (h : CrlfCrlf data i) : width data i = 4 :=
  if_neg fun hlf => not_both hlf h

theorem contains_some_iff {n : ℕ} :
    containsDoubleNewline data = some (i, n) ↔
      (First (CrlfCrlf data) i ∧ n = 4) ∨ ((∀ j, ¬ CrlfCrlf data j) ∧ First (LfLf data) i ∧ n = 2) := by
  have hcrlf : ∀ i, CrlfCrlf data i → i < data.length - 3 := fun i h => by have := h.lt_length; omega
  have hlf : ∀ i, LfLf data i → i < data.length - 1 := fun i h => by have := h.lt_length; omega
  unfold containsDoubleNewline
  cases hfind : (List.range (data.length - 3)).find? fun i => CrlfCrlf data i with
  | some k =>
    have hk := (find_some_iff hcrlf).1 hfind
    simp only [Option.some.injEq, Prod.mk.injEq]
    constructor
    · rintro ⟨rfl, rfl⟩
      exact .inl ⟨hk, rfl⟩
    · rintro (⟨hi, rfl⟩ | ⟨hnone, -⟩)
      · rw [← find_some_iff hcrlf, hfind] at hi
        exact ⟨Option.some.inj hi, rfl⟩
      · exact absurd hk.1 (hnone k)
  | none =>
    have hnone := (find_none_iff hcrlf).1 hfind
    rw [or_iff_right fun h => hnone i h.1.1, and_iff_right hnone, ← find_some_iff hlf]
    cases (List.range (data.length - 1)).find? fun i => LfLf data i with
    | some k => simp only [Option.some.injEq, Prod.mk.injEq, eq_comm]
    | none => simp

theorem contains_none_iff : containsDoubleNewline data = none ↔ ∀ i, ¬ DoubleNewline data i := by
  have hcrlf : ∀ i, CrlfCrlf data i → i < data.length - 3 := fun i h => by have := h.lt_length; omega
  have hlf : ∀ i, LfLf data i → i < data.length - 1 := fun i h => by have := h.lt_length; omega
  simp only [DoubleNewline, not_or, forall_and]
  rw [← find_none_iff hcrlf, ← find_none_iff hlf]
  unfold containsDoubleNewline
  cases (List.range (data.length - 3)).find? fun i => CrlfCrlf data i with
  | some k => simp
  | none => cases (List.range (data.length - 1)).find? fun i => LfLf data i <;> simp

theorem DoubleNewline.width_le (h : DoubleNewline data i) : i + width data i ≤ data.length := by
  rcases h with hlf | hcrlf
  · have := hlf.lt_length
    rw [width, if_pos hlf]
    omega
  · have := hcrlf.lt_length
    rw [width_of_crlf hcrlf]
    omega

theorem width_pos (data : Bytes) (i : ℕ) : 0 < width data i := by
  unfold width
  split_ifs <;> omega

theorem DoubleNewline.lt_length (h : DoubleNewline data i) : i < data.length := by
  have hle := h.width_le
  have hpos := width_pos data i
  omega

theorem first_some_iff {n : ℕ} : first data = some (i, n) ↔ First (DoubleNewline data) i ∧ n = width data i := by
  rw [← find_some_iff fun _ h => DoubleNewline.lt_length h]
  unfold first
  cases (List.range data.length).find? fun i => DoubleNewline data i with
  | none => simp
  | some k =>
    simp only [Option.map_some, Option.some.injEq, Prod.mk.injEq]
    exact ⟨fun ⟨hk, hn⟩ => ⟨hk, by rw [← hn, hk]⟩, fun ⟨hk, hn⟩ => ⟨hk, by rw [hn, hk]⟩⟩

theorem first_none_iff : first data = none ↔ ∀ i, ¬ DoubleNewline data i := by
  rw [← find_none_iff fun _ h => DoubleNewline.lt_length h, first, Option.map_eq_none_iff]

theorem contains_found {n : ℕ} (h : containsDoubleNewline data = some (i, n)) :
    DoubleNewline data i ∧ n = width data i := by
  rcases contains_some_iff.1 h with ⟨hfirst, rfl⟩ | ⟨-, hfirst, rfl⟩
  · exact ⟨.inr hfirst.1, (width_of_crlf hfirst.1).symm⟩
  · exact ⟨.inl hfirst.1, (if_pos hfirst.1).symm⟩

/-- and the leftmost one, where no double LF stands before the first double CRLF -/
theorem agrees_iff (data : Bytes) : containsDoubleNewline data = first data ↔ Unambiguous data := by
  constructor
  · intro hagree i j hlf hcrlf
    obtain ⟨k, hk⟩ : ∃ k, First (CrlfCrlf data) k := ⟨Nat.find ⟨j, hcrlf⟩, Nat.find_spec _, fun m => Nat.find_min _⟩
    have hfound : first data = some (k, 4) := hagree ▸ contains_some_iff.2 (.inl ⟨hk, rfl⟩)
    have hleft := (first_some_iff.1 hfound).1.2
    refine ⟨k, lt_of_le_of_ne (not_lt.1 fun hlt => hleft i hlt (.inl hlf)) ?_, hk.1⟩
    rintro rfl
    exact not_both hlf hk.1
  · intro hclear
    cases hcontains : containsDoubleNewline data with
    | none => exact (first_none_iff.2 (contains_none_iff.1 hcontains)).symm
    | some p =>
      obtain ⟨k, n⟩ := p
      obtain ⟨hk, hn⟩ := contains_found hcontains
      refine (first_some_iff.2 ⟨⟨hk, fun j hj hdouble => ?_⟩, hn⟩).symm
      rcases contains_some_iff.1 hcontains with ⟨hfirst, -⟩ | ⟨hnone, hfirst, -⟩
      · rcases hdouble with hlf | hcrlf
        · obtain ⟨m, hm, hcrlf⟩ := hclear j k hlf hfirst.1
          exact hfirst.2 m (hm.trans hj) hcrlf
        · exact hfirst.2 j hj hcrlf
      · rcases hdouble with hlf | hcrlf
        · exact hfirst.2 j hj hlf
        · exact hnone j hcrlf

/-! ### More of the stream -/

variable {d : Bytes} (e : Bytes)

theorem LfLf.append_iff (hi : i + 1 < d.length) : LfLf (d ++ e) i ↔ LfLf d i := by
  unfold LfLf
  rw [List.getElem?_append_left (by omega), List.getElem?_append_left hi]

theorem CrlfCrlf.append_iff (hi : i + 3 < d.length) : CrlfCrlf (d ++ e) i ↔ CrlfCrlf d i := by
  unfold CrlfCrlf
  rw [List.getElem?_append_left (by omega), List.getElem?_append_left (by omega),
    List.getElem?_append_left (by omega), List.getElem?_append_left hi]

theorem DoubleNewline.append (h : DoubleNewline d i) : DoubleNewline (d ++ e) i ∧ width (d ++ e) i = width d i := by
  rcases h with hlf | hcrlf
  · have happend := (LfLf.append_iff e hlf.lt_length).2 hlf
    exact ⟨.inl happend, by rw [width, width, if_pos happend, if_pos hlf]⟩
  · have happend := (CrlfCrlf.append_iff e hcrlf.lt_length).2 hcrlf
    exact ⟨.inr happend, by rw [width_of_crlf happend, width_of_crlf hcrlf]⟩

theorem DoubleNewline.of_append (h : DoubleNewline (d ++ e) i)
    (hle : i + width (d ++ e) i ≤ d.length) : DoubleNewline d i := by
  rcases h with hlf | hcrlf
  · rw [width, if_pos hlf] at hle
    exact .inl ((LfLf.append_iff e (by omega)).1 hlf)
  · rw [width_of_crlf hcrlf] at hle
    exact .inr ((CrlfCrlf.append_iff e (by omega)).1 hcrlf)

theorem width_le_of_lt {j : ℕ} (hi : DoubleNewline data i) (hj : DoubleNewline data j) (hlt : j < i) :
    j + width data j ≤ i + width data i := by
  have hwidth : width data j ≤ 4 := by
    unfold width
    split_ifs <;> omega
  rcases hi with hlf | hcrlf
  · rw [width, width]
    split_ifs with hjlf
    · omega
    · -- the third byte of a double CRLF is not an LF
      have hcrlf := hj.resolve_left hjlf
      have hne : i ≠ j + 1 := by
        rintro rfl
        have hbyte := hlf.2.symm.trans hcrlf.2.2.1
        exact absurd hbyte (by decide)
      omega
  · rw [width_of_crlf hcrlf]
    omega

/-- **The split function is a search.** -/
theorem search : Search containsDoubleNewline first where
  first_le := by
    intro d i n hfirst
    obtain ⟨⟨hdouble, -⟩, rfl⟩ := first_some_iff.1 hfirst
    exact ⟨width_pos d i, hdouble.width_le⟩
  first_append := by
    rintro d ⟨i, n⟩ e hfirst
    obtain ⟨⟨hdouble, hleft⟩, rfl⟩ := first_some_iff.1 hfirst
    obtain ⟨happend, hwidth⟩ := hdouble.append e
    refine first_some_iff.2 ⟨⟨happend, fun j hj hjdouble => ?_⟩, hwidth.symm⟩
    have hends := width_le_of_lt happend hjdouble hj
    have hle := hdouble.width_le
    exact hleft j hj (hjdouble.of_append e (by omega))
  first_of_append := by
    intro d i n e hfirst hle
    obtain ⟨⟨hdouble, hleft⟩, rfl⟩ := first_some_iff.1 hfirst
    have hd := hdouble.of_append e hle
    exact first_some_iff.2 ⟨⟨hd, fun j hj hjdouble => hleft j hj (hjdouble.append e).1⟩, (hd.append e).2⟩
  cut_le := by
    intro d j m hcut
    obtain ⟨hdouble, rfl⟩ := contains_found hcut
    exact ⟨width_pos d j, hdouble.width_le⟩
  cut_none_iff := fun d => contains_none_iff.trans first_none_iff.symm
  cut_later := by
    intro d j m i n hcut hfirst hne
    obtain ⟨hdouble, rfl⟩ := contains_found hcut
    obtain ⟨⟨-, hleft⟩, rfl⟩ := first_some_iff.1 hfirst
    refine lt_of_le_of_ne (not_lt.1 fun hlt => hleft j hlt hdouble) ?_
    rintro rfl
    exact hne (hcut.trans hfirst.symm)

theorem LfLf.inside {a b : Bytes} (h : LfLf d i) : LfLf (a ++ d ++ b) (a.length + i) := by
  simpa [LfLf, Nat.add_assoc, List.getElem?_append_right] using (LfLf.append_iff b h.lt_length).2 h

theorem CrlfCrlf.inside {a b : Bytes} (h : CrlfCrlf d i) : CrlfCrlf (a ++ d ++ b) (a.length + i) := by
  simpa [CrlfCrlf, Nat.add_assoc, List.getElem?_append_right] using (CrlfCrlf.append_iff b h.lt_length).2 h

/-- in a stream whose double CRLFs all come before its double LFs, no part is ambiguous -/
theorem unambiguous_part {stream : Bytes} (hd : d <:+: stream)
    (horder : ∀ i j, LfLf stream i → CrlfCrlf stream j → j < i) : Unambiguous d := by
  obtain ⟨a, b, rfl⟩ := hd
  intro i j hlf hcrlf
  have hlt := horder _ _ hlf.inside hcrlf.inside
  exact ⟨j, by omega, hcrlf⟩

/-! ## Blocks -/

theorem initBufferSize_le (maxBufferSize : ℤ) : initBufferSize maxBufferSize ≤ maxBufferSize.toNat := by
  unfold initBufferSize minPosInt
  split_ifs <;> omega

/-- `ReadEvent` returns the blocks of the stream and then `io.EOF` -/
def Segmented (maxBufferSize : ℤ) (r : Cutting) (stream : Bytes) : Prop :=
  readEvents maxBufferSize r stream = (blocks stream).map .ok ++ [.error .eof]

theorem segmented_iff {maxBufferSize : ℤ} {r : Cutting} {stream : Bytes} :
    Segmented maxBufferSize r stream ↔
      (scanner maxBufferSize r stream).stop = .eof ∧ (scanner maxBufferSize r stream).tokens = blocks stream := by
  have hstop : ∀ stop : Stop, stopError stop = .eof ↔ stop = .eof := by rintro (_ | _ | _) <;> decide
  have hok : Function.Injective (Except.ok : Bytes → Except Error Bytes) := fun _ _ => Except.ok.inj
  unfold Segmented readEvents
  rw [List.append_singleton_inj, hok.list_map.eq_iff, Except.error.injEq, hstop, and_comm]

/-- **Segmentation of an event stream.** Through one reader the blocks are those of the stream exactly when each fits
into the buffer together with its double newline (the last one with the room to see the end), and no buffer that was
searched held a double LF before its first double CRLF. Every reader returns them when the double CRLFs of the stream
come before its double LFs. -/
theorem segmentation (maxBufferSize : ℤ) (stream : Bytes) :
    (∀ r : Cutting, Segmented maxBufferSize r stream ↔
      Fits first maxBufferSize r.spare stream ∧ ∀ d ∈ (scanner maxBufferSize r stream).windows, Unambiguous d) ∧
    (Fits first maxBufferSize 1 stream → (∀ i j, LfLf stream i → CrlfCrlf stream j → j < i) →
      ∀ r : Cutting, Segmented maxBufferSize r stream) := by
  have hsize := initBufferSize_le maxBufferSize
  refine ⟨fun r => ?_, fun hfits horder r => ?_⟩
  · simp only [← agrees_iff]
    exact segmented_iff.trans (search.scan_eq_iff hsize r stream)
  · exact segmented_iff.2 (search.scan_of_fits hsize r (hfits.mono r.spare_le) fun d hd =>
      (agrees_iff d).2 (unambiguous_part hd horder))

def inOnePiece : Cutting := ⟨fun _ => 1000, false⟩

def byteByByte : Cutting := ⟨fun _ => 0, false⟩

def mixed : Bytes := [97, 10, 10, 98, 13, 10, 13, 10]

/-- **Mixed line ends.** In one piece the first double newline is missed, byte by byte it is not. And an event that is
shorter than the buffer may not fit into it together with its double newline. -/
theorem mixed_line_ends :
    blocks mixed = [[97], [98]] ∧
    readEvents 64 byteByByte mixed = [.ok [97], .ok [98], .error .eof] ∧
    readEvents 64 inOnePiece mixed = [.ok [97, 10, 10, 98], .error .eof] ∧
    blocks [97, 98, 99, 10, 10] = [[97, 98, 99]] ∧
    readEvents 4 byteByByte [97, 98, 99, 10, 10] = [.error .tooLong] := by
  decide +kernel

end LuluExt.Sse.EventStreamReader
