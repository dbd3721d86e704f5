/-
A scanner with a buffer: it reads a stream in pieces and lets a split function find the next token at the front of what
the buffer holds. When there is no token it moves what it holds to the front of the buffer, doubles a buffer that is
full up to a maximum, and reads again; a full buffer of maximal size ends the scan. At the end of the stream the split
function is asked once more.

Here the split function cuts at separators that a search finds in the buffer. The question is when the tokens are those
of the stream cut at the leftmost separators, whatever the pieces.

- `runs_scan`: the loop, as a relation between a state and what comes of it;
- `scan_eq_iff`: the tokens are those of the stream exactly when they fit and every search found the leftmost one;
- `scan_of_fits`: without looking at the buffers.
-/
import Mathlib.Tactic

namespace LuluExt.Scanner

variable {α : Type*}

/-! ## The scanner -/

/-- the buffer, what it holds, and the stream that is still to be read -/
structure State (α : Type*) where
  bufLen : ℕ
  start : ℕ
  held : List α
  rest : List α
  reads : ℕ
  eof : Bool
  inside : start + held.length ≤ bufLen

/-- how the reader cuts its stream: the number of elements it has ready at a read, less one; and whether it reports the
end together with the last of them -/
structure Cutting where
  ready : ℕ → ℕ
  eager : Bool

/-- the room that is needed to see the end of the stream -/
def Cutting.spare (r : Cutting) : ℕ := if r.eager then 0 else 1

/-- how much a read gets: what is ready, up to the free part of the buffer -/
def State.amount (r : Cutting) (s : State α) : ℕ :=
  min (r.ready s.reads + 1) (min (s.bufLen - (s.start + s.held.length)) s.rest.length)

theorem State.inside_read (r : Cutting) (s : State α) :
    s.start + (s.held ++ s.rest.take (s.amount r)).length ≤ s.bufLen := by
  have hinside := s.inside
  rw [List.length_append, List.length_take]
  unfold amount
  omega

def State.read (r : Cutting) (s : State α) : State α :=
  { s with
    held := s.held ++ s.rest.take (s.amount r)
    rest := s.rest.drop (s.amount r)
    reads := s.reads + 1
    eof := s.rest.isEmpty || (r.eager && s.amount r == s.rest.length)
    inside := s.inside_read r }

/-- the buffer begins with what it holds -/
def State.shift (s : State α) : State α :=
  if s.start > 0 ∧ (s.start + s.held.length = s.bufLen ∨ s.start > s.bufLen / 2) then
    { s with start := 0, inside := (Nat.add_le_add_right (Nat.zero_le _) _).trans s.inside }
  else s

/-- the size of a buffer after it was full -/
def grown (max : ℤ) (bufLen : ℕ) : ℕ := min (if bufLen * 2 = 0 then 4096 else bufLen * 2) max.toNat

variable {max : ℤ}

theorem lt_grown {bufLen : ℕ} (h : ¬ (bufLen : ℤ) ≥ max) : bufLen < grown max bufLen := by
  unfold grown
  split_ifs <;> omega

theorem State.inside_grow (s : State α) {n : ℕ} (h : s.bufLen < n) : 0 + s.held.length ≤ n := by
  have hinside := s.inside
  omega

/-- room in the buffer, and a read; `none` when the buffer is full and may not grow -/
def State.fill (max : ℤ) (r : Cutting) (s : State α) : Option (State α) :=
  if s.shift.start + s.shift.held.length = s.shift.bufLen then
    if h : (s.shift.bufLen : ℤ) ≥ max then none
    else
      some (State.read r { s.shift with
        bufLen := grown max s.shift.bufLen, start := 0, inside := s.shift.inside_grow (lt_grown h) })
  else some (s.shift.read r)

theorem State.inside_advance (s : State α) (n : ℕ) :
    s.start + min n s.held.length + (s.held.drop n).length ≤ s.bufLen := by
  have hinside := s.inside
  rw [List.length_drop]
  omega

def State.advance (s : State α) (n : ℕ) : State α :=
  { s with start := s.start + min n s.held.length, held := s.held.drop n, inside := s.inside_advance n }

/-- a token at the front of the buffer, if the split function finds one -/
def State.token (split : List α → Bool → Option (ℕ × List α)) (s : State α) : Option (List α × State α) :=
  if s.held = [] ∧ s.eof = false then none else (split s.held s.eof).map fun t => (t.2, s.advance t.1)

inductive Stop where
  | eof
  | tooLong
  | outOfFuel
deriving DecidableEq, Repr

/-- the tokens, the buffers that were given to the split function, and why the scan ended -/
structure Trace (α : Type*) where
  tokens : List (List α)
  windows : List (List α)
  stop : Stop
deriving DecidableEq, Repr

def State.window (s : State α) : List (List α) := if s.held = [] ∧ s.eof = false then [] else [s.held]

/-- the loop of the scanner -/
def scan (split : List α → Bool → Option (ℕ × List α)) (max : ℤ) (r : Cutting) : ℕ → State α → Trace α
  | 0, _ => ⟨[], [], .outOfFuel⟩
  | fuel + 1, s =>
    match s.token split with
    | some (token, s') =>
      let t := scan split max r fuel s'
      ⟨token :: t.tokens, s.held :: t.windows, t.stop⟩
    | none =>
      if s.eof then ⟨[], s.window, .eof⟩
      else
        match s.fill max r with
        | none => ⟨[], s.window, .tooLong⟩
        | some s' =>
          let t := scan split max r fuel s'
          ⟨t.tokens, s.window ++ t.windows, t.stop⟩

/-- steps that are left: each token and each read takes one off -/
def State.measure (s : State α) : ℕ := s.held.length + s.rest.length + s.rest.length + (if s.eof then 0 else 1)

theorem inside_init (size : ℕ) : 0 + ([] : List α).length ≤ size := Nat.zero_le _

def State.init (size : ℕ) (stream : List α) : State α := ⟨size, 0, [], stream, 0, false, inside_init size⟩

/-- all tokens of a stream -/
def scanAll (split : List α → Bool → Option (ℕ × List α)) (size : ℕ) (max : ℤ) (r : Cutting) (stream : List α) :
    Trace α :=
  scan split max r ((State.init size stream).measure + 1) (State.init size stream)

/-! ### Reads -/

theorem State.read_append (r : Cutting) (s : State α) : (s.read r).held ++ (s.read r).rest = s.held ++ s.rest := by
  simp only [State.read, List.append_assoc, List.take_append_drop]

variable {s : State α}

theorem State.read_measure (r : Cutting) (hroom : s.start + s.held.length < s.bufLen)
    (heof : s.eof = false) : (s.read r).measure < s.measure := by
  have htotal := congrArg List.length (s.read_append r)
  rw [List.length_append, List.length_append] at htotal
  have hrest : (s.read r).rest.length = s.rest.length - s.amount r := List.length_drop
  unfold measure
  rw [heof, htotal, hrest]
  by_cases hnil : s.rest = []
  · have hend : (s.read r).eof := by simp [State.read, hnil]
    simp [hend]
  · have hpos : 0 < s.amount r := by
      have hlen := List.length_pos_iff.2 hnil
      unfold amount
      omega
    have hbit : (if (s.read r).eof then 0 else 1) ≤ 1 := by split_ifs <;> omega
    have hlen := List.length_pos_iff.2 hnil
    simp only [Bool.false_eq_true, if_false]
    omega

theorem State.shift_spec (s : State α) :
    s.shift.held = s.held ∧ s.shift.rest = s.rest ∧ s.shift.eof = s.eof ∧ s.shift.bufLen = s.bufLen := by
  unfold shift
  split_ifs <;> simp

theorem State.start_of_full (h : s.shift.start + s.shift.held.length = s.shift.bufLen) : s.held.length = s.bufLen := by
  unfold shift at h
  split_ifs at h with hshift
  · simpa using h
  · rcases Nat.eq_zero_or_pos s.start with h0 | hpos
    · simpa [h0] using h
    · exact absurd ⟨hpos, .inl h⟩ hshift

/-- a fill is a read into a buffer with room, unless the buffer is full and may not grow -/
theorem State.fill_cases (max : ℤ) (r : Cutting) (s : State α) :
    (s.fill max r = none ∧ max ≤ s.held.length) ∨
      ∃ s1 : State α, s.fill max r = some (s1.read r) ∧ s1.held = s.held ∧ s1.rest = s.rest ∧ s1.eof = s.eof ∧
        s1.start + s1.held.length < s1.bufLen ∧ (s.bufLen ≤ max.toNat → s1.bufLen ≤ max.toNat) := by
  obtain ⟨hheld, hrest, heof, hlen⟩ := s.shift_spec
  unfold fill
  split_ifs with hfull hmax
  · refine .inl ⟨rfl, ?_⟩
    rw [State.start_of_full hfull, ← hlen]
    exact hmax
  · refine .inr ⟨_, rfl, hheld, hrest, heof, ?_, fun _ => Nat.min_le_right _ _⟩
    have hgrown := lt_grown hmax
    dsimp only
    omega
  · exact .inr ⟨_, rfl, hheld, hrest, heof, lt_of_le_of_ne s.shift.inside hfull, fun h => hlen.trans_le h⟩

/-- what holds of the buffer between two steps -/
structure State.Ok (max : ℤ) (r : Cutting) (s : State α) : Prop where
  bounded : s.bufLen ≤ max.toNat
  ended : s.eof = true → s.rest = []
  pos : s.eof = true → 0 < max
  seen : s.eof = true → s.start + s.held.length + r.spare ≤ s.bufLen
  /-- a reader that reports the end early has more to read, or has read nothing yet -/
  early : r.eager = true → s.eof = false → s.rest = [] → s.held = []

theorem State.Ok.init {size : ℕ} (r : Cutting) (hsize : size ≤ max.toNat) (stream : List α) :
    (State.init size stream).Ok max r where
  bounded := hsize
  ended := by simp [State.init]
  pos := by simp [State.init]
  seen := by simp [State.init]
  early := by simp [State.init]

theorem State.Ok.read (r : Cutting) (hmax : s.bufLen ≤ max.toNat)
    (hroom : s.start + s.held.length < s.bufLen) : (s.read r).Ok max r where
  bounded := hmax
  ended := by
    intro hend
    simp only [State.read, Bool.or_eq_true, List.isEmpty_iff, Bool.and_eq_true, beq_iff_eq] at hend ⊢
    rcases hend with hnil | ⟨-, hall⟩
    · rw [hnil, List.drop_nil]
    · rw [hall, List.drop_length]
  pos _ := by omega
  seen := by
    intro hend
    have hinside := s.inside_read r
    unfold Cutting.spare
    split_ifs with heager
    · exact hinside
    · have hnil : s.rest = [] := by simpa [State.read, heager] using hend
      simpa [State.read, hnil] using hroom
  early := by
    intro heager hopen hnil
    have hall : s.rest.length ≤ s.amount r := List.drop_eq_nil_iff.1 hnil
    have hmost : s.amount r ≤ s.rest.length := (Nat.min_le_right _ _).trans (Nat.min_le_right _ _)
    have heq : s.amount r = s.rest.length := le_antisymm hmost hall
    simp [State.read, heager, heq] at hopen

variable {r : Cutting}

theorem State.Ok.fill {s' : State α} (hok : s.Ok max r) (hfill : s.fill max r = some s') :
    s'.Ok max r ∧ s'.held ++ s'.rest = s.held ++ s.rest ∧ (s.eof = false → s'.measure < s.measure) := by
  rcases s.fill_cases max r with ⟨hnone, -⟩ | ⟨s1, hsome, hheld, hrest, heof, hroom, hbound⟩
  · rw [hnone] at hfill
    cases hfill
  · obtain rfl : s1.read r = s' := Option.some.inj (hsome.symm.trans hfill)
    have hmax := hbound hok.bounded
    have hmeasure : s1.measure = s.measure := by simp only [measure, hheld, hrest, heof]
    refine ⟨.read r hmax hroom, by rw [s1.read_append, hheld, hrest], fun h => ?_⟩
    exact hmeasure ▸ s1.read_measure r hroom (heof.trans h)

theorem State.advance_measure {n : ℕ} (hn : 0 < n) (hle : n ≤ s.held.length) : (s.advance n).measure < s.measure := by
  have hdrop : (s.held.drop n).length < s.held.length := by
    rw [List.length_drop]
    omega
  exact Nat.add_lt_add_right (Nat.add_lt_add_right (Nat.add_lt_add_right hdrop _) _) _

theorem State.Ok.advance (hok : s.Ok max r) {n : ℕ} (hle : n ≤ s.held.length) : (s.advance n).Ok max r where
  bounded := hok.bounded
  ended := hok.ended
  pos := hok.pos
  seen := by
    intro hend
    have hseen := hok.seen hend
    have hlen : (s.held.drop n).length = s.held.length - n := List.length_drop
    simp only [State.advance]
    omega
  early := by
    intro heager hopen hnil
    simp only [State.advance, hok.early heager hopen hnil, List.drop_nil]

theorem State.advance_all (hrest : s.rest = []) :
    (s.advance s.held.length).held ++ (s.advance s.held.length).rest = [] := by
  simp [State.advance, hrest]

/-! ## Separators -/

/-- tokens up to a separator; at the end of the stream, what is left -/
def splitWith (cut : List α → Option (ℕ × ℕ)) (data : List α) (atEOF : Bool) : Option (ℕ × List α) :=
  if atEOF = true ∧ data.length = 0 then none
  else
    match cut data with
    | some (i, n) => some (i + n, data.take i)
    | none => if atEOF then some (data.length, data) else none

/-- a search for separators, given by their position and length, beside the leftmost one -/
structure Search (cut first : List α → Option (ℕ × ℕ)) : Prop where
  first_le : ∀ {d i n}, first d = some (i, n) → 0 < n ∧ i + n ≤ d.length
  /-- what follows does not change the leftmost separator, -/
  first_append : ∀ {d p} (e : List α), first d = some p → first (d ++ e) = some p
  /-- and it is found as soon as it is there -/
  first_of_append : ∀ {d i n} (e : List α), first (d ++ e) = some (i, n) → i + n ≤ d.length → first d = some (i, n)
  cut_le : ∀ {d j m}, cut d = some (j, m) → 0 < m ∧ j + m ≤ d.length
  cut_none_iff : ∀ d, cut d = none ↔ first d = none
  /-- what is found instead of the leftmost separator is further to the right -/
  cut_later : ∀ {d j m i n}, cut d = some (j, m) → first d = some (i, n) → cut d ≠ first d → i < j

/-- the stream cut at its leftmost separators -/
def splitAll (first : List α → Option (ℕ × ℕ)) (s : List α) : List (List α) :=
  match first s with
  | none => if s = [] then [] else [s]
  | some (i, n) => if 0 < i + n ∧ s ≠ [] then s.take i :: splitAll first (s.drop (i + n)) else [s]
termination_by s.length
decreasing_by
  have hpos : 0 < s.length := List.length_pos_iff.2 (by tauto)
  rw [List.length_drop]
  omega

variable {first : List α → Option (ℕ × ℕ)}

theorem splitAll_last {s : List α} (hs : s ≠ []) (hnone : first s = none) : splitAll first s = [s] := by
  rw [splitAll, hnone]
  exact if_neg hs

/-- every token fits into the buffer together with its separator, and the last one leaves room to see the end -/
inductive Fits (first : List α → Option (ℕ × ℕ)) (max : ℤ) (spare : ℕ) : List α → Prop
  | last {s : List α} (hnone : first s = none) (hmax : 0 < max) (hs : ((s.length + spare : ℕ) : ℤ) ≤ max) :
      Fits first max spare s
  | cons {s : List α} {i n : ℕ} (hfirst : first s = some (i, n)) (hs : ((i + n : ℕ) : ℤ) ≤ max)
      (hrest : Fits first max spare (s.drop (i + n))) : Fits first max spare s

theorem fits_cons_iff {spare : ℕ} {s : List α} {i n : ℕ} (hfirst : first s = some (i, n)) :
    Fits first max spare s ↔ ((i + n : ℕ) : ℤ) ≤ max ∧ Fits first max spare (s.drop (i + n)) := by
  refine ⟨fun hfits => ?_, fun hfits => .cons hfirst hfits.1 hfits.2⟩
  cases hfits with
  | last hnone => rw [hnone] at hfirst; cases hfirst
  | cons hfirst' hs hrest =>
    rw [hfirst'] at hfirst
    obtain ⟨rfl, rfl⟩ := Prod.mk.inj (Option.some.inj hfirst)
    exact ⟨hs, hrest⟩

theorem Fits.mono {spare spare' : ℕ} (hspare : spare' ≤ spare)
    {s : List α} (hfits : Fits first max spare s) : Fits first max spare' s := by
  induction hfits with
  | last hnone hmax hs => exact .last hnone hmax (by omega)
  | cons hfirst hs _ ih => exact .cons hfirst hs ih

theorem Cutting.spare_le (r : Cutting) : r.spare ≤ 1 := by
  unfold spare
  split_ifs <;> omega

/-- the loop of the scanner on a split function that cuts: a token up to a separator, the last token, the end of the
stream, a buffer that is full, or a read -/
inductive Runs (cut : List α → Option (ℕ × ℕ)) (max : ℤ) (r : Cutting) : State α → Trace α → Prop
  | token {s : State α} {j m : ℕ} {t : Trace α} (hcut : cut s.held = some (j, m))
      (hrest : Runs cut max r (s.advance (j + m)) t) :
      Runs cut max r s ⟨s.held.take j :: t.tokens, s.held :: t.windows, t.stop⟩
  | last {s : State α} {t : Trace α} (hcut : cut s.held = none) (heof : s.eof = true) (hne : s.held ≠ [])
      (hrest : Runs cut max r (s.advance s.held.length) t) :
      Runs cut max r s ⟨s.held :: t.tokens, s.held :: t.windows, t.stop⟩
  | done {s : State α} (hcut : cut s.held = none) (heof : s.eof = true) (hnil : s.held = []) :
      Runs cut max r s ⟨[], s.window, .eof⟩
  | full {s : State α} (hcut : cut s.held = none) (heof : s.eof = false) (hfill : s.fill max r = none) :
      Runs cut max r s ⟨[], s.window, .tooLong⟩
  | fill {s s' : State α} {t : Trace α} (hcut : cut s.held = none) (heof : s.eof = false)
      (hfill : s.fill max r = some s') (hrest : Runs cut max r s' t) :
      Runs cut max r s ⟨t.tokens, s.window ++ t.windows, t.stop⟩

section

variable {cut first : List α → Option (ℕ × ℕ)} (h : Search cut first)

include h

theorem Search.first_nil : first [] = none := by
  cases hfirst : first [] with
  | none => rfl
  | some p =>
    have hle := h.first_le (i := p.1) (n := p.2) hfirst
    simp at hle
    omega

theorem Search.splitAll_nil : splitAll first [] = [] := by
  rw [splitAll, h.first_nil]
  rfl

theorem Search.splitAll_cons {s : List α} {i n : ℕ} (hfirst : first s = some (i, n)) :
    splitAll first s = s.take i :: splitAll first (s.drop (i + n)) := by
  obtain ⟨hn, hle⟩ := h.first_le hfirst
  have hs : s ≠ [] := by
    rintro rfl
    simp at hle
    omega
  rw [splitAll, hfirst]
  exact if_pos ⟨by omega, hs⟩

/-! ## Tokens of the scanner -/

theorem Search.token_cases (s : State α) :
    (∃ j m, cut s.held = some (j, m) ∧ s.token (splitWith cut) = some (s.held.take j, s.advance (j + m))) ∨
      (cut s.held = none ∧ s.eof ∧ s.held ≠ [] ∧
        s.token (splitWith cut) = some (s.held, s.advance s.held.length)) ∨
      (cut s.held = none ∧ (s.eof → s.held = []) ∧ s.token (splitWith cut) = none) := by
  cases hcut : cut s.held with
  | some p =>
    obtain ⟨j, m⟩ := p
    have hle := h.cut_le hcut
    have hne : s.held ≠ [] := by
      intro hnil
      rw [hnil] at hle
      simp at hle
      omega
    refine .inl ⟨j, m, rfl, ?_⟩
    simp [State.token, splitWith, hcut, hne]
  | none =>
    by_cases hlast : s.eof ∧ s.held ≠ []
    · refine .inr (.inl ⟨rfl, hlast.1, hlast.2, ?_⟩)
      simp [State.token, splitWith, hcut, hlast.1, hlast.2]
    · refine .inr (.inr ⟨rfl, fun he => not_not.1 fun hne => hlast ⟨he, hne⟩, ?_⟩)
      cases he : s.eof with
      | true =>
        have hnil : s.held = [] := not_not.1 fun hne => hlast ⟨he, hne⟩
        simp [State.token, splitWith, he, hnil]
      | false => simp [State.token, splitWith, hcut, he]

theorem Search.runs_scan (fuel : ℕ) (hok : s.Ok max r)
    (hfuel : s.measure < fuel) : Runs cut max r s (scan (splitWith cut) max r fuel s) := by
  induction fuel generalizing s with
  | zero => omega
  | succ fuel ih =>
    rcases h.token_cases s with ⟨j, m, hcut, htoken⟩ | ⟨hcut, heof, hne, htoken⟩ | ⟨hcut, hend, htoken⟩
    · obtain ⟨hm, hle⟩ := h.cut_le hcut
      have hmeasure : (s.advance (j + m)).measure < s.measure := State.advance_measure (by omega) hle
      simp only [scan, htoken]
      exact .token hcut (ih (hok.advance hle) (by omega))
    · have hmeasure : (s.advance s.held.length).measure < s.measure :=
        State.advance_measure (List.length_pos_iff.2 hne) le_rfl
      simp only [scan, htoken]
      exact .last hcut heof hne (ih (hok.advance le_rfl) (by omega))
    · simp only [scan, htoken]
      cases heof : s.eof with
      | true => exact .done hcut heof (hend heof)
      | false =>
        cases hfill : s.fill max r with
        | none => exact .full hcut heof hfill
        | some s' =>
          obtain ⟨hok', -, hmeasure⟩ := hok.fill hfill
          exact .fill hcut heof hfill (ih hok' (by have := hmeasure heof; omega))

/-- in a buffer without a separator there is none to miss -/
theorem Search.window_agrees (hcut : cut s.held = none) : ∀ d ∈ s.window, cut d = first d := by
  intro d hd
  unfold State.window at hd
  split_ifs at hd
  · cases hd
  · rw [List.mem_singleton.1 hd, hcut, (h.cut_none_iff _).1 hcut]

/-- a separator that is the leftmost of the buffer is the leftmost of what is left of the stream -/
theorem Search.first_stream {j m : ℕ} (hcut : cut s.held = some (j, m)) (hfound : cut s.held = first s.held) :
    first (s.held ++ s.rest) = some (j, m) ∧
      (s.held ++ s.rest).drop (j + m) = (s.advance (j + m)).held ++ (s.advance (j + m)).rest :=
  ⟨h.first_append _ (hfound ▸ hcut), List.drop_append_of_le_length (h.cut_le hcut).2⟩

theorem Search.tokens_iff {t : Trace α} (hok : s.Ok max r) (hrun : Runs cut max r s t) (hstop : t.stop = .eof) :
    t.tokens = splitAll first (s.held ++ s.rest) ↔ ∀ d ∈ t.windows, cut d = first d := by
  induction hrun with
  | @token s j m t hcut _ ih =>
    obtain ⟨hm, hle⟩ := h.cut_le hcut
    have hrest := ih (hok.advance hle) hstop
    rw [List.forall_mem_cons]
    by_cases hfound : cut s.held = first s.held
    · obtain ⟨hfirst, hdrop⟩ := h.first_stream hcut hfound
      have htake : (s.held ++ s.rest).take j = s.held.take j := List.take_append_of_le_length (by omega)
      rw [h.splitAll_cons hfirst, htake, hdrop, and_iff_right hfound]
      exact (List.cons_inj_right _).trans hrest
    · -- a token that ends at a later separator is longer than the one of the stream
      refine iff_of_false (fun htokens => ?_) fun hall => hfound hall.1
      obtain ⟨i, n, hfirst⟩ : ∃ i n, first s.held = some (i, n) := by
        cases hnone : first s.held with
        | none => rw [(h.cut_none_iff _).2 hnone] at hcut; cases hcut
        | some p => exact ⟨p.1, p.2, rfl⟩
      have hlater := h.cut_later hcut hfirst hfound
      rw [h.splitAll_cons (h.first_append s.rest hfirst)] at htokens
      have hlength := congrArg List.length (List.cons.inj htokens).1
      rw [List.length_take, List.length_take] at hlength
      omega
  | @last s t hcut heof hne _ ih =>
    have hrest := ih (hok.advance le_rfl) hstop
    have hnone := (h.cut_none_iff s.held).1 hcut
    rw [State.advance_all (hok.ended heof), h.splitAll_nil] at hrest
    rw [hok.ended heof, List.append_nil, splitAll_last hne hnone, List.forall_mem_cons, hcut, hnone, and_iff_right rfl]
    exact (List.cons_inj_right _).trans hrest
  | done hcut heof hnil =>
    refine iff_of_true ?_ (h.window_agrees hcut)
    rw [hnil, hok.ended heof, List.append_nil, h.splitAll_nil]
  | full => cases hstop
  | fill hcut _ hfill _ ih =>
    obtain ⟨hok', hstream, -⟩ := hok.fill hfill
    rw [← hstream, ih hok' hstop, List.forall_mem_append, and_iff_right (h.window_agrees hcut)]

theorem Search.not_fits_of_full (hok : s.Ok max r) (hcut : cut s.held = none)
    (heof : s.eof = false) (hfill : s.fill max r = none) : ¬ Fits first max r.spare (s.held ++ s.rest) := by
  intro hfits
  have hfull : max ≤ s.held.length := by
    rcases s.fill_cases max r with ⟨-, hfull⟩ | ⟨s1, hsome, -⟩
    · exact hfull
    · rw [hsome] at hfill
      cases hfill
  cases hfits with
  | last _ _ hlen =>
    rw [List.length_append] at hlen
    have hrest : s.rest = [] := List.length_eq_zero_iff.1 (by omega)
    unfold Cutting.spare at hlen
    split_ifs at hlen with heager
    · rw [hok.early heager heof hrest] at hfull
      simp at hfull
      omega
    · omega
  | cons hfirst hlen _ =>
    have hfound := h.first_of_append s.rest hfirst (by omega)
    rw [(h.cut_none_iff _).1 hcut] at hfound
    cases hfound

theorem Search.stop_iff {t : Trace α} (hok : s.Ok max r) (hrun : Runs cut max r s t)
    (hagree : ∀ d ∈ t.windows, cut d = first d) :
    t.stop = .eof ↔ Fits first max r.spare (s.held ++ s.rest) := by
  induction hrun with
  | @token s j m t hcut _ ih =>
    obtain ⟨hm, hle⟩ := h.cut_le hcut
    obtain ⟨hfound, hrest⟩ := List.forall_mem_cons.1 hagree
    obtain ⟨hfirst, hdrop⟩ := h.first_stream hcut hfound
    have hsmall : ((j + m : ℕ) : ℤ) ≤ max := by
      have hinside := s.inside
      have hbound := hok.bounded
      omega
    rw [fits_cons_iff hfirst, and_iff_right hsmall, hdrop]
    exact ih (hok.advance hle) hrest
  | @last s t hcut heof hne _ ih =>
    have hmax := hok.pos heof
    have hrest := ih (hok.advance le_rfl) (List.forall_mem_cons.1 hagree).2
    have hsmall : ((s.held.length + r.spare : ℕ) : ℤ) ≤ max := by
      have hseen := hok.seen heof
      have hbound := hok.bounded
      omega
    have hlast : Fits first max r.spare (s.held ++ s.rest) := by
      rw [hok.ended heof, List.append_nil]
      exact .last ((h.cut_none_iff _).1 hcut) hmax hsmall
    rw [State.advance_all (hok.ended heof)] at hrest
    refine iff_of_true (hrest.2 (.last h.first_nil hmax ?_)) hlast
    simp only [List.length_nil]
    omega
  | @done s hcut heof hnil =>
    have hmax := hok.pos heof
    refine iff_of_true rfl ?_
    rw [hnil, hok.ended heof, List.append_nil]
    refine .last h.first_nil hmax ?_
    have hseen := hok.seen heof
    have hbound := hok.bounded
    simp only [List.length_nil]
    omega
  | full hcut heof hfill => exact iff_of_false (by simp) (h.not_fits_of_full hok hcut heof hfill)
  | fill hcut _ hfill _ ih =>
    obtain ⟨hok', hstream, -⟩ := hok.fill hfill
    rw [← hstream]
    exact ih hok' (List.forall_mem_append.1 hagree).2

theorem Search.windows_part {t : Trace α} (hok : s.Ok max r)
    (hrun : Runs cut max r s t) : ∀ d ∈ t.windows, d <:+: s.held ++ s.rest := by
  have hwindow : ∀ s : State α, ∀ d ∈ s.window, d <:+: s.held ++ s.rest := by
    intro s d hd
    unfold State.window at hd
    split_ifs at hd
    · cases hd
    · rw [List.mem_singleton.1 hd]
      exact (List.prefix_append _ _).isInfix
  have hadvance : ∀ (s : State α) (n : ℕ), n ≤ s.held.length →
      (s.advance n).held ++ (s.advance n).rest <:+: s.held ++ s.rest := fun s n hle =>
    (List.drop_append_of_le_length hle).symm ▸ (List.drop_suffix n (s.held ++ s.rest)).isInfix
  induction hrun with
  | @token s j m t hcut _ ih =>
    have hle := (h.cut_le hcut).2
    exact List.forall_mem_cons.2 ⟨(List.prefix_append _ _).isInfix, fun d hd =>
      (ih (hok.advance hle) d hd).trans (hadvance s _ hle)⟩
  | @last s t _ _ _ _ ih =>
    exact List.forall_mem_cons.2 ⟨(List.prefix_append _ _).isInfix, fun d hd =>
      (ih (hok.advance le_rfl) d hd).trans (hadvance s _ le_rfl)⟩
  | done | full => exact hwindow _
  | fill _ _ hfill _ ih =>
    obtain ⟨hok', hstream, -⟩ := hok.fill hfill
    exact List.forall_mem_append.2 ⟨hwindow _, fun d hd => hstream ▸ ih hok' d hd⟩

theorem Search.runs_scanAll {size : ℕ} (hsize : size ≤ max.toNat) (r : Cutting) (stream : List α) :
    Runs cut max r (State.init size stream) (scanAll (splitWith cut) size max r stream) :=
  h.runs_scan _ (.init r hsize stream) (Nat.lt_succ_self _)

/-- **Tokens of a stream.** The scan ends with the stream, its tokens those of the stream cut at the leftmost
separators, exactly when they fit and the search found the leftmost separator of each buffer it was given. -/
theorem Search.scan_eq_iff {size : ℕ} (hsize : size ≤ max.toNat) (r : Cutting) (stream : List α) :
    ((scanAll (splitWith cut) size max r stream).stop = .eof ∧
      (scanAll (splitWith cut) size max r stream).tokens = splitAll first stream) ↔
    Fits first max r.spare stream ∧
      ∀ d ∈ (scanAll (splitWith cut) size max r stream).windows, cut d = first d := by
  have hok : (State.init size stream).Ok max r := .init r hsize stream
  have hrun := h.runs_scanAll hsize r stream
  constructor
  · rintro ⟨hstop, htokens⟩
    have hagree := (h.tokens_iff hok hrun hstop).1 htokens
    exact ⟨(h.stop_iff hok hrun hagree).1 hstop, hagree⟩
  · rintro ⟨hfits, hagree⟩
    have hstop := (h.stop_iff hok hrun hagree).2 hfits
    exact ⟨hstop, (h.tokens_iff hok hrun hstop).2 hagree⟩

/-- **A stream that fits**, and in no part of which the search misses the leftmost separator. -/
theorem Search.scan_of_fits {size : ℕ} (hsize : size ≤ max.toNat) (r : Cutting) {stream : List α}
    (hfits : Fits first max r.spare stream) (hagree : ∀ d, d <:+: stream → cut d = first d) :
    (scanAll (splitWith cut) size max r stream).stop = .eof ∧
      (scanAll (splitWith cut) size max r stream).tokens = splitAll first stream :=
  (h.scan_eq_iff hsize r stream).2 ⟨hfits, fun d hd =>
    hagree d (h.windows_part (.init r hsize stream) (h.runs_scanAll hsize r stream) d hd)⟩

end

end LuluExt.Scanner
