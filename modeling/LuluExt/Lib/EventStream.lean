/-
The event-stream format, from the side that reads it: bytes to lines, lines to fields, fields to messages.

A line ends with CR, LF or CRLF; what follows the last end is not a line yet. A line is a field, its name up to the
first colon and its value after it (without one leading space); a line that starts with a colon has an empty name and is
a comment. The fields data, event and id fill the reader's buffers, every other field is ignored, and an empty line
dispatches a message: unless there is no data, it carries the data lines joined by LF, the last id, and its type. The
field retry dispatches nothing and is not kept.

The reader knows nothing but lines, so a writer's fields are only safe from each other as long as it keeps line ends out
of them. Rules:
- `lines_append`, `lines_line`: what is written up to a line end is read on its own;
- `messages_append`, `next_blank`: what is written up to an empty line leaves no trace but the last id;
- `length_data_le`: how much data a number of lines can make.
-/
import Mathlib.Tactic

namespace LuluExt.EventStream

abbrev Bytes := List UInt8

def lf : UInt8 := 10
def cr : UInt8 := 13
def space : UInt8 := 32
def colon : UInt8 := 58

/-! ## Lines -/

/-- the lines that end in the text, when `line` has been read of the first one; after a CR an LF is skipped -/
def linesFrom (afterCr : Bool) (line : Bytes) : Bytes → List Bytes
  | [] => []
  | b :: bs =>
    if b = lf then if afterCr then linesFrom false line bs else line :: linesFrom false [] bs
    else if b = cr then line :: linesFrom true [] bs
    else linesFrom false (line ++ [b]) bs

def lines (text : Bytes) : List Bytes := linesFrom false [] text

/-- no line ends in it -/
def Unbroken (text : Bytes) : Prop := lf ∉ text ∧ cr ∉ text

instance (text : Bytes) : Decidable (Unbroken text) := inferInstanceAs (Decidable (_ ∧ _))

variable {a : Bytes}

theorem unbroken_append {b : Bytes} : Unbroken (a ++ b) ↔ Unbroken a ∧ Unbroken b := by
  simp only [Unbroken, List.mem_append]
  tauto

variable {line : Bytes}

theorem linesFrom_append {afterCr : Bool} (h : afterCr → line = []) (a b : Bytes) :
    linesFrom afterCr line (a ++ lf :: b) = linesFrom afterCr line (a ++ [lf]) ++ lines b := by
  induction a generalizing afterCr line with
  | nil =>
    cases afterCr with
    | true => simp [linesFrom, h rfl, lines]
    | false => simp [linesFrom, lines]
  | cons c a ih =>
    simp only [List.cons_append, linesFrom]
    split_ifs
    · exact ih (by simp)
    · rw [ih (by simp), List.cons_append]
    · rw [ih (by simp), List.cons_append]
    · exact ih (by simp)

/-- what stands before a line end and what stands after it are read on their own -/
theorem lines_append (a b : Bytes) : lines (a ++ lf :: b) = lines (a ++ [lf]) ++ lines b :=
  linesFrom_append (by simp) a b

/-- nothing, or a text up to a line end -/
def Ended (text : Bytes) : Prop := text = [] ∨ ∃ a, text = a ++ [lf]

theorem ended_snoc (a : Bytes) : Ended (a ++ [lf]) := .inr ⟨a, rfl⟩

theorem Ended.append {b : Bytes} (ha : Ended a) (hb : Ended b) : Ended (a ++ b) := by
  rcases hb with rfl | ⟨b, rfl⟩
  · simpa using ha
  · rw [← List.append_assoc]
    exact ended_snoc _

theorem Ended.lines_append (ha : Ended a) (b : Bytes) : lines (a ++ b) = lines a ++ lines b := by
  rcases ha with rfl | ⟨a, rfl⟩
  · rfl
  · rw [List.append_assoc]
    exact EventStream.lines_append a b

theorem linesFrom_unbroken (line rest : Bytes) (h : Unbroken a) :
    linesFrom false line (a ++ rest) = linesFrom false (line ++ a) rest := by
  induction a generalizing line with
  | nil => simp
  | cons c a ih =>
    obtain ⟨hlf, hcr⟩ := h
    simp only [List.mem_cons, not_or] at hlf hcr
    rw [List.cons_append, linesFrom, if_neg (Ne.symm hlf.1), if_neg (Ne.symm hcr.1), ih _ ⟨hlf.2, hcr.2⟩]
    simp

theorem lines_line (h : Unbroken a) (b : Bytes) : lines (a ++ lf :: b) = a :: lines b := by
  rw [lines, linesFrom_unbroken [] _ h]
  simp [linesFrom, lines]

theorem lines_cons_lf (b : Bytes) : lines (lf :: b) = [] :: lines b := lines_line (by decide : Unbroken []) b

variable {l text : Bytes}

theorem unbroken_of_mem_linesFrom {afterCr : Bool} (hline : Unbroken line)
    (h : l ∈ linesFrom afterCr line text) : Unbroken l := by
  induction text generalizing afterCr line with
  | nil => simp [linesFrom] at h
  | cons b bs ih =>
    have hnil : Unbroken [] := by decide
    simp only [linesFrom] at h
    split_ifs at h with hlf hafter hcr
    · exact ih hline h
    · rcases List.mem_cons.1 h with rfl | h
      · exact hline
      · exact ih hnil h
    · rcases List.mem_cons.1 h with rfl | h
      · exact hline
      · exact ih hnil h
    · refine ih ?_ h
      rw [unbroken_append]
      exact ⟨hline, by simp [Unbroken, Ne.symm hlf, Ne.symm hcr]⟩

theorem unbroken_of_mem_lines (h : l ∈ lines text) : Unbroken l :=
  unbroken_of_mem_linesFrom (by decide) h

/-- not a line end -/
def inLine (b : UInt8) : Bool := b ≠ lf && b ≠ cr

theorem sum_length_linesFrom (afterCr : Bool) (line text : Bytes) :
    ((linesFrom afterCr line (text ++ [lf])).map List.length).sum ≤
      line.length + text.countP inLine := by
  induction text generalizing afterCr line with
  | nil => cases afterCr <;> simp [linesFrom]
  | cons b bs ih =>
    simp only [List.cons_append, linesFrom]
    split_ifs with hlf hafter hcr
    · simpa [inLine, hlf] using ih false line
    · simpa [inLine, hlf] using ih false []
    · simpa [inLine, hcr] using ih true []
    · have hb : inLine b := by simp [inLine, hlf, hcr]
      have := ih false (line ++ [b])
      simp only [List.length_append, List.length_singleton] at this
      rw [List.countP_cons_of_pos hb]
      omega

/-- line ends are in none of the lines -/
theorem sum_length_lines_le (text : Bytes) :
    ((lines (text ++ [lf])).map List.length).sum ≤ text.countP inLine := by
  simpa [lines] using sum_length_linesFrom false [] text

theorem countP_lt_of_not_unbroken (h : ¬ Unbroken text) : text.countP inLine < text.length := by
  refine lt_of_le_of_ne List.countP_le_length fun heq => h ?_
  rw [List.countP_eq_length] at heq
  constructor
  · intro hm
    exact absurd (heq lf hm) (by decide)
  · intro hm
    exact absurd (heq cr hm) (by decide)

theorem linesFrom_prefixed (p line text : Bytes) :
    linesFrom false (p ++ line) text = (linesFrom false line text).modifyHead (p ++ ·) := by
  induction text generalizing line with
  | nil => rfl
  | cons b bs ih =>
    simp only [linesFrom, Bool.false_eq_true, if_false, List.append_assoc]
    split_ifs
    · rfl
    · rfl
    · exact ih (line ++ [b])

/-- what is written in front of a text is written in front of its first line -/
theorem lines_prefixed {p : Bytes} (h : Unbroken p) (text : Bytes) :
    lines (p ++ text) = (lines text).modifyHead (p ++ ·) := by
  rw [lines, linesFrom_unbroken [] text h]
  simpa [lines] using linesFrom_prefixed p [] text

/-! ## Fields -/

/-- a field without a colon is all name -/
def name (line : Bytes) : Bytes := line.takeWhile (· ≠ colon)

def value (line : Bytes) : Bytes :=
  match (line.dropWhile (· ≠ colon)).tail with
  | [] => []
  | b :: v => if b = space then v else b :: v

def dataName : Bytes := [100, 97, 116, 97]
def eventName : Bytes := [101, 118, 101, 110, 116]
def idName : Bytes := [105, 100]

variable {n : Bytes}

theorem ne_colon (h : colon ∉ n) : ∀ b ∈ n, decide (b ≠ colon) := by
  intro b hb
  have hne : b ≠ colon := by
    rintro rfl
    exact h hb
  exact decide_eq_true hne

theorem name_field (h : colon ∉ n) (v : Bytes) : name (n ++ colon :: v) = n := by
  rw [name, List.takeWhile_append_of_pos (ne_colon h)]
  simp

theorem value_field (h : colon ∉ n) (v : Bytes) : value (n ++ colon :: space :: v) = v := by
  rw [value, List.dropWhile_append_of_pos (ne_colon h)]
  simp

theorem value_empty (h : colon ∉ n) : value (n ++ [colon]) = [] := by
  rw [value, List.dropWhile_append_of_pos (ne_colon h)]
  simp

/-- a field as it is usually written, without a space before an empty value -/
def fieldLine (n v : Bytes) : Bytes := n ++ colon :: if v = [] then [] else space :: v

theorem name_fieldLine (h : colon ∉ n) (v : Bytes) : name (fieldLine n v) = n := name_field h _

theorem value_fieldLine (h : colon ∉ n) (v : Bytes) : value (fieldLine n v) = v := by
  unfold fieldLine
  split_ifs with hv
  · rw [hv, value_empty h]
  · exact value_field h v

theorem fieldLine_ne_nil (n v : Bytes) : fieldLine n v ≠ [] := by simp [fieldLine]

theorem unbroken_fieldLine {v : Bytes} (hn : Unbroken n) (hv : Unbroken v) : Unbroken (fieldLine n v) := by
  have hcolon : Unbroken [colon] := by decide
  have hspace : Unbroken [space] := by decide
  unfold fieldLine
  split_ifs
  · exact unbroken_append.2 ⟨hn, hcolon⟩
  · exact unbroken_append.2 ⟨hn, unbroken_append.2 ⟨hcolon, unbroken_append.2 ⟨hspace, hv⟩⟩⟩

theorem length_value_le (line : Bytes) : (value line).length + (name line).length ≤ line.length := by
  have hsplit := congrArg List.length (List.takeWhile_append_dropWhile (p := fun b => decide (b ≠ colon)) (l := line))
  have hvalue : (value line).length ≤ (line.dropWhile (· ≠ colon)).length - 1 := by
    rw [← List.length_tail, value]
    split
    · simp
    · rename_i b v hv
      rw [hv]
      split_ifs <;> simp
  simp only [List.length_append] at hsplit
  rw [name]
  omega

theorem value_subset {b : UInt8} (h : b ∈ value line) : b ∈ line := by
  have htail : b ∈ (line.dropWhile (· ≠ colon)).tail := by
    rw [value] at h
    split at h
    · simp at h
    · rename_i c v hv
      rw [hv]
      split_ifs at h
      · exact List.mem_cons_of_mem _ h
      · exact h
  exact (List.dropWhile_suffix _).subset (List.mem_of_mem_tail htail)

theorem unbroken_value (h : Unbroken line) : Unbroken (value line) :=
  ⟨fun hm => h.1 (value_subset hm), fun hm => h.2 (value_subset hm)⟩

/-! ## Messages -/

/-- the buffers -/
structure Reader where
  data : Bytes
  typ : Bytes
  lastId : Bytes
deriving DecidableEq, Repr

structure Message where
  id : Bytes
  typ : Bytes
  data : Bytes
deriving DecidableEq, Repr

def Reader.init : Reader := ⟨[], [], []⟩

/-- `message`, the type of a message that is not given one -/
def defaultType : Bytes := [109, 101, 115, 115, 97, 103, 101]

def typeOf (t : Bytes) : Bytes := if t = [] then defaultType else t

def next (r : Reader) (line : Bytes) : Reader :=
  if line = [] then { r with data := [], typ := [] }
  else if name line = dataName then { r with data := r.data ++ value line ++ [lf] }
  else if name line = eventName then { r with typ := value line }
  else if name line = idName ∧ 0 ∉ value line then { r with lastId := value line }
  else r

/-- what a line dispatches -/
def out (r : Reader) (line : Bytes) : List Message :=
  if line = [] ∧ r.data ≠ [] then [⟨r.lastId, typeOf r.typ, r.data.dropLast⟩] else []

def after (r : Reader) (ls : List Bytes) : Reader := ls.foldl next r

def messages : Reader → List Bytes → List Message
  | _, [] => []
  | r, l :: ls => out r l ++ messages (next r l) ls

def bom : Bytes := [0xEF, 0xBB, 0xBF]

/-- a byte order mark at the start of a stream is skipped -/
def stripBom (text : Bytes) : Bytes := if text.take 3 = bom then text.drop 3 else text

def parse (text : Bytes) : List Message := messages .init (lines (stripBom text))

variable (r : Reader)

theorem messages_append (a b : List Bytes) : messages r (a ++ b) = messages r a ++ messages (after r a) b := by
  induction a generalizing r with
  | nil => rfl
  | cons l a ih => simp [messages, ih, after]

theorem after_append (a b : List Bytes) : after r (a ++ b) = after (after r a) b := by
  simp [after]

@[simp] theorem next_blank : next r [] = { r with data := [], typ := [] } := rfl

theorem next_data (h : name l = dataName) (r : Reader) : next r l = { r with data := r.data ++ value l ++ [lf] } := by
  have hne : l ≠ [] := by
    rintro rfl
    exact absurd h (by decide)
  rw [next, if_neg hne, if_pos h]

theorem next_event (h : name l = eventName) (r : Reader) : next r l = { r with typ := value l } := by
  have hne : l ≠ [] := by
    rintro rfl
    exact absurd h (by decide)
  rw [next, if_neg hne, if_neg (by rw [h]; decide), if_pos h]

theorem out_of_ne (h : l ≠ []) (r : Reader) : out r l = [] := by simp [out, h]

/-- the room a line has for data, the LF that joins it included -/
def room (l : Bytes) : ℕ := if name l = dataName then (value l).length + 1 else 0

theorem length_next_data (l : Bytes) : (next r l).data.length ≤ r.data.length + room l := by
  by_cases h : name l = dataName
  · rw [next_data h, room, if_pos h]
    simp
  · simp only [next]
    split_ifs <;> simp

variable {ls : List Bytes}

/-- **Data is made of data lines.** A message's data has no more bytes than what was in the buffer and what the lines
have room for. -/
theorem length_data_le {r : Reader} {m : Message} (h : m ∈ messages r ls) :
    m.data.length + 1 ≤ r.data.length + (ls.map room).sum := by
  induction ls generalizing r with
  | nil => simp [messages] at h
  | cons l ls ih =>
    simp only [messages, List.mem_append] at h
    rw [List.map_cons, List.sum_cons]
    rcases h with h | h
    · simp only [out] at h
      split_ifs at h with hblank
      · have hpos := List.length_pos_iff.2 hblank.2
        obtain rfl := List.mem_singleton.1 h
        simp only [List.length_dropLast]
        omega
      · simp at h
    · have := ih h
      have := length_next_data r l
      omega

theorem unbroken_next_typ {r : Reader} (hr : Unbroken r.typ) (hl : Unbroken l) : Unbroken (next r l).typ := by
  simp only [next]
  split_ifs
  · exact (by decide : Unbroken [])
  · exact hr
  · exact unbroken_value hl
  · exact hr
  · exact hr

theorem unbroken_typeOf {t : Bytes} (h : Unbroken t) : Unbroken (typeOf t) := by
  unfold typeOf
  split_ifs
  · decide
  · exact h

theorem unbroken_typ {r : Reader} (hr : Unbroken r.typ) (hls : ∀ l ∈ ls, Unbroken l) {m : Message}
    (h : m ∈ messages r ls) : Unbroken m.typ := by
  induction ls generalizing r with
  | nil => simp [messages] at h
  | cons l ls ih =>
    simp only [messages, List.mem_append] at h
    rcases h with h | h
    · simp only [out] at h
      split_ifs at h
      · obtain rfl := List.mem_singleton.1 h
        exact unbroken_typeOf hr
      · simp at h
    · exact ih (unbroken_next_typ hr (hls l (by simp))) (fun l hl => hls l (by simp [hl])) h

theorem room_le (l : Bytes) : room l ≤ l.length := by
  unfold room
  split_ifs with h
  · have := length_value_le l
    rw [h] at this
    simp only [dataName, List.length_cons] at this
    omega
  · exact Nat.zero_le _

theorem sum_room_le (ls : List Bytes) : (ls.map room).sum ≤ (ls.map List.length).sum :=
  List.sum_le_sum fun l _ => room_le l

/-- lines that only fill the buffers dispatch nothing -/
theorem messages_of_ne (h : ∀ l ∈ ls, l ≠ []) (r : Reader) : messages r ls = [] := by
  induction ls generalizing r with
  | nil => rfl
  | cons l ls ih =>
    rw [messages, out_of_ne (h l (by simp)), ih fun l hl => h l (by simp [hl])]
    rfl

/-- data that is written as one field, with whatever lines are in it: only an unbroken text has room for all of it -/
theorem sum_room_field_le {d : Bytes} (h : ¬ Unbroken d) :
    ((lines (dataName ++ colon :: space :: (d ++ [lf]))).map room).sum ≤ d.length := by
  have hsplit : lines (dataName ++ colon :: space :: (d ++ [lf])) =
      (lines (d ++ [lf])).modifyHead (dataName ++ [colon, space] ++ ·) := by
    rw [← lines_prefixed (by decide)]
    simp
  have hsum := (sum_length_lines_le d).trans_lt (countP_lt_of_not_unbroken h)
  rw [hsplit]
  cases hl : lines (d ++ [lf]) with
  | nil => simp
  | cons first rest =>
    have hroom : room (dataName ++ [colon, space] ++ first) = first.length + 1 := by
      have hname : name (dataName ++ colon :: space :: first) = dataName := name_field (by decide) _
      have hvalue : value (dataName ++ colon :: space :: first) = first := value_field (by decide) _
      simp [room, hname, hvalue]
    have hrest := sum_room_le rest
    rw [hl, List.map_cons, List.sum_cons] at hsum
    rw [List.modifyHead_cons, List.map_cons, List.sum_cons]
    omega

theorem after_dataLines (vs : List Bytes) :
    after r (vs.map (fieldLine dataName)) = { r with data := r.data ++ vs.flatMap (· ++ [lf]) } := by
  induction vs generalizing r with
  | nil => simp [after]
  | cons v vs ih =>
    have hname : name (fieldLine dataName v) = dataName := name_fieldLine (by decide) v
    rw [List.map_cons, after, List.foldl_cons, ← after, next_data hname, ih, value_fieldLine (by decide)]
    simp

/-! ## The start of a stream -/

theorem stripBom_of_head (h : text.head? ≠ some 0xEF) : stripBom text = text := by
  refine if_neg fun hbom => h ?_
  cases text with
  | nil => exact absurd hbom (by decide)
  | cons b text =>
    rw [List.take_succ_cons, bom, List.cons.injEq] at hbom
    rw [hbom.1]
    rfl

theorem stripBom_append (a b : Bytes) : stripBom (a ++ lf :: b) = stripBom a ++ lf :: b := by
  have hlf : lf ∉ bom := by decide
  rcases le_or_gt 3 a.length with hlong | hshort
  · unfold stripBom
    rw [List.take_append_of_le_length hlong, List.drop_append_of_le_length hlong]
    split_ifs <;> rfl
  · -- a line end within the first three bytes
    have hno : ∀ t : Bytes, t.take 3 = bom → t.length ≥ 3 := by
      intro t ht
      have := congrArg List.length ht
      simp only [List.length_take, bom, List.length_cons] at this
      omega
    have ha : stripBom a = a := if_neg fun h => by
      have := hno a h
      omega
    have hab : (a ++ lf :: b).take 3 ≠ bom := by
      intro h
      refine hlf (h ▸ ?_)
      rw [List.take_append, List.mem_append]
      right
      obtain ⟨k, hk⟩ : ∃ k, 3 - a.length = k + 1 := ⟨2 - a.length, by omega⟩
      simp [hk]
    rw [ha, stripBom, if_neg hab]

theorem Ended.stripBom (h : Ended a) : Ended (stripBom a) := by
  rcases h with rfl | ⟨a, rfl⟩
  · exact .inl rfl
  · rw [stripBom_append]
    exact ended_snoc _

theorem Ended.stripBom_append (h : Ended a) (hne : a ≠ []) (b : Bytes) :
    EventStream.stripBom (a ++ b) = EventStream.stripBom a ++ b := by
  rcases h with rfl | ⟨a, rfl⟩
  · exact absurd rfl hne
  · simp [EventStream.stripBom_append]

/-! ## Foreign lines

Lines of somebody else, up to an empty line: when they leave the messages as they are. -/

/-- what a message shows, its id apart -/
def Message.shown (m : Message) : Bytes × Bytes := (m.typ, m.data)

def NoData (ls : List Bytes) : Prop := ∀ l ∈ ls, name l ≠ dataName

instance (ls : List Bytes) : Decidable (NoData ls) := inferInstanceAs (Decidable (∀ l ∈ ls, _))

/-- the type buffer at the first empty line -/
def retype : Bytes → List Bytes → Bytes
  | t, [] => t
  | t, l :: ls => if l = [] then t else retype (if name l = eventName then value l else t) ls

theorem noData_cons : NoData (l :: ls) ↔ name l ≠ dataName ∧ NoData ls := by
  simp [NoData]

theorem next_data_eq (hl : l ≠ []) (h : name l ≠ dataName) (r : Reader) : (next r l).data = r.data := by
  simp only [next, hl, h, if_false]
  split_ifs <;> rfl

theorem next_typ_eq (hl : l ≠ []) (h : name l ≠ dataName) (r : Reader) :
    (next r l).typ = if name l = eventName then value l else r.typ := by
  simp only [next, hl, h, if_false]
  split_ifs <;> rfl

/-- data that is in the buffer comes out, at the latest with the empty line at the end -/
theorem exists_first {r : Reader} {d : Bytes} (hr : r.data = d ++ [lf]) (ls : List Bytes) :
    ∃ m ms, messages r (ls ++ [[]]) = m :: ms ∧ d.length ≤ m.data.length := by
  induction ls generalizing r d with
  | nil => exact ⟨⟨r.lastId, typeOf r.typ, d⟩, [], by simp [messages, out, hr], le_rfl⟩
  | cons l ls ih =>
    by_cases hl : l = []
    · subst hl
      exact ⟨⟨r.lastId, typeOf r.typ, d⟩, messages (next r []) (ls ++ [[]]), by simp [messages, out, hr], le_rfl⟩
    · simp only [List.cons_append, messages, out_of_ne hl]
      by_cases hdata : name l = dataName
      · obtain ⟨m, ms, hms, hlen⟩ := ih (r := next r l) (d := d ++ [lf] ++ value l) (by rw [next_data hdata, hr])
        exact ⟨m, ms, hms, by simp at hlen; omega⟩
      · exact ih (by rw [next_data_eq hl hdata, hr])

/-- between messages, foreign lines make none exactly when none of them is data -/
theorem idle_iff {r : Reader} (hr : r.data = []) (ls : List Bytes) : messages r (ls ++ [[]]) = [] ↔ NoData ls := by
  induction ls generalizing r with
  | nil => simp [messages, out, hr, NoData]
  | cons l ls ih =>
    rw [noData_cons]
    by_cases hl : l = []
    · subst hl
      have hname : name [] ≠ dataName := by decide
      simp [messages, out, hr, hname, ih]
    · simp only [List.cons_append, messages, out_of_ne hl, List.nil_append]
      by_cases hdata : name l = dataName
      · obtain ⟨m, ms, hms, -⟩ := exists_first (r := next r l) (d := value l) (by rw [next_data hdata, hr]; rfl) ls
        simp [hms, hdata]
      · rw [ih (by rw [next_data_eq hl hdata, hr])]
        simp [hdata]

/-- **Foreign lines within a message** leave it as it is exactly when none of them is data and none changes its type
before an empty line. -/
theorem pending_iff {r : Reader} {d : Bytes} (hr : r.data = d ++ [lf]) (t : Bytes) (ls : List Bytes) :
    (messages r (ls ++ [[]])).map Message.shown = [(t, d)] ↔ NoData ls ∧ typeOf (retype r.typ ls) = t := by
  induction ls generalizing r with
  | nil => simp [messages, out, hr, NoData, Message.shown, retype]
  | cons l ls ih =>
    rw [noData_cons]
    by_cases hl : l = []
    · subst hl
      have hname : name [] ≠ dataName := by decide
      have hidle := idle_iff (r := next r []) rfl ls
      rw [next_blank] at hidle
      simp [messages, out, hr, Message.shown, retype, hname, hidle, and_comm]
    · simp only [List.cons_append, messages, out_of_ne hl, List.nil_append, retype, hl]
      by_cases hdata : name l = dataName
      · -- the message has grown, and cannot be what it was
        obtain ⟨m, ms, hms, hlen⟩ :=
          exists_first (r := next r l) (d := d ++ [lf] ++ value l) (by rw [next_data hdata, hr]) ls
        have hne : m.data ≠ d := by
          intro h
          rw [h] at hlen
          simp at hlen
        simp [hms, hdata, Message.shown, hne]
      · rw [ih (by rw [next_data_eq hl hdata, hr]), next_typ_eq hl hdata]
        simp [hdata]

end LuluExt.EventStream
