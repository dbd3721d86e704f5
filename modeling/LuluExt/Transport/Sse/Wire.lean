/-
The bytes that `ServeHTTP` writes for the events of a subscriber, and what a client reads in them.

The loop writes an event as fields of the event-stream format: id, data, event and retry where there is data, then the
comment, then an empty line. With splitData the data is written line by line. Without it the data is written as it is,
or, if it starts with a colon, as it is and without the name of the field; and a comment is always written as it is,
without the colon that would make it one. So a line end in the data or in the name, a leading colon, and any comment
that looks like a field, reach the client as fields of their own.
-/
import LuluExt.Lib.Run
import LuluExt.Lib.EventStream
import LuluExt.Transport.Sse.Event

namespace LuluExt.Sse

open EventStream Run

structure Options where
  splitData : Bool
  /-- nanoseconds, 0 for none -/
  eventTTL : ℤ
deriving DecidableEq, Repr

def retryName : Bytes := [114, 101, 116, 114, 121]

def fieldId : Bytes := idName ++ [colon]
def fieldData : Bytes := dataName ++ [colon]
def fieldEvent : Bytes := eventName ++ [colon]
def fieldRetry : Bytes := retryName ++ [colon]

def writeData (field data : Bytes) : Bytes :=
  (if field.length > 0 then
    field ++ if data.length > 0 ∧ (field.length = 0 ∨ field.getLast? ≠ some space) then [space] else []
  else []) ++ data ++ [lf]

def writeDataLines (opts : Options) (data : Bytes) : Bytes :=
  if opts.splitData then (data.splitOn lf).flatMap (writeData fieldData)
  else if [colon] <+: data then data ++ [lf]
  else writeData fieldData data

/-- everything written for an event where it has data -/
def writeFields (opts : Options) (e : Event) : Bytes :=
  writeData fieldId e.id ++ writeDataLines opts e.data ++
    (if e.event.length > 0 then writeData fieldEvent e.event else []) ++
    (if e.retry.length > 0 then writeData fieldRetry e.retry else [])

def writeComment (e : Event) : Bytes := if e.comment.length > 0 then writeData [] e.comment else []

def writeEvent (opts : Options) (e : Event) : Bytes :=
  (if e.data.length > 0 then writeFields opts e else []) ++ writeComment e ++ [lf]

def expired (opts : Options) (e : Event) (now : ℕ) : Bool :=
  opts.eventTTL ≠ 0 && ((now : ℤ) > e.timestamp + opts.eventTTL)

/-- the loop over the subscriber's events, each with the clock at its turn -/
def serveEvents (opts : Options) : List (Event × ℕ) → Bytes
  | [] => []
  | (e, now) :: events =>
    if e.ends then []
    else if expired opts e now then serveEvents opts events
    else writeEvent opts e ++ serveEvents opts events

/-! ## Fields on the wire -/

theorem writeData_field (n v : Bytes) : writeData (n ++ [colon]) v = fieldLine n v ++ [lf] := by
  have hlast : (n ++ [colon]).getLast? ≠ some space := by
    rw [List.getLast?_concat]
    decide
  unfold writeData fieldLine
  rw [if_pos (by simp)]
  by_cases hv : v = []
  · simp [hv]
  · have hpos := List.length_pos_iff.2 hv
    rw [if_pos ⟨hpos, .inr hlast⟩, if_neg hv]
    simp

theorem lines_writeData {n v : Bytes} (hn : Unbroken n) (hv : Unbroken v) (rest : Bytes) :
    lines (writeData (n ++ [colon]) v ++ rest) = fieldLine n v :: lines rest := by
  rw [writeData_field, List.append_assoc]
  exact lines_line (unbroken_fieldLine hn hv) rest

def optLine (n v : Bytes) : List Bytes := if v = [] then [] else [fieldLine n v]

theorem lines_optField {n v : Bytes} (hn : Unbroken n) (hv : Unbroken v) (rest : Bytes) :
    lines ((if v.length > 0 then writeData (n ++ [colon]) v else []) ++ rest) = optLine n v ++ lines rest := by
  unfold optLine
  by_cases h : v = []
  · simp [h]
  · rw [if_pos (List.length_pos_iff.2 h), if_neg h, lines_writeData hn hv]
    rfl

theorem next_id {v : Bytes} (h : 0 ∉ v) (r : Reader) : next r (fieldLine idName v) = { r with lastId := v } := by
  have hname : name (fieldLine idName v) = idName := name_fieldLine (by decide) v
  have hvalue : value (fieldLine idName v) = v := value_fieldLine (by decide) v
  rw [next, if_neg (fieldLine_ne_nil _ _), hname, if_neg (by decide), if_neg (by decide), hvalue,
    if_pos ⟨rfl, h⟩]

theorem after_optEvent {r : Reader} (hr : r.typ = []) (v : Bytes) :
    after r (optLine eventName v) = { r with typ := v } := by
  unfold optLine
  by_cases h : v = []
  · rw [if_pos h, h, ← hr]
    rfl
  · have hname : name (fieldLine eventName v) = eventName := name_fieldLine (by decide) v
    rw [if_neg h, after, List.foldl_cons, List.foldl_nil, next_event hname, value_fieldLine (by decide)]

theorem ne_nil_of_mem_optLine {n v l : Bytes} (h : l ∈ optLine n v) : l ≠ [] := by
  unfold optLine at h
  split_ifs at h
  · simp at h
  · rw [List.mem_singleton.1 h]
    exact fieldLine_ne_nil _ _

theorem head_writeEvent (opts : Options) {e : Event} (h : e.data ≠ []) (rest : Bytes) :
    (writeEvent opts e ++ rest).head? = some 105 := by
  rw [writeEvent, if_pos (List.length_pos_iff.2 h)]
  rfl

/-! ## Split data -/

theorem mem_splitOn {d l : Bytes} (h : l ∈ d.splitOn lf) : lf ∉ l ∧ l ⊆ d := by
  by_cases hlf : lf ∈ d
  · obtain ⟨a, b, hd, ha⟩ := List.eq_append_cons_of_mem hlf
    have hlt : b.length < d.length := by
      rw [hd, List.length_append, List.length_cons]
      omega
    rw [hd, List.splitOn_append_cons_self_of_not_mem ha] at h
    rcases List.mem_cons.1 h with rfl | h
    · exact ⟨ha, hd ▸ List.subset_append_left ..⟩
    · obtain ⟨hl, hsub⟩ := mem_splitOn h
      exact ⟨hl, fun x hx => by simp [hd, hsub hx]⟩
  · rw [List.splitOn_eq_singleton hlf, List.mem_singleton] at h
    subst h
    exact ⟨hlf, List.Subset.refl l⟩
termination_by d.length

theorem flatMap_intercalate {ls : List Bytes} (h : ls ≠ []) :
    ls.flatMap (· ++ [lf]) = [lf].intercalate ls ++ [lf] := by
  induction ls with
  | nil => exact absurd rfl h
  | cons l ls ih =>
    cases ls with
    | nil => simp
    | cons l' ls =>
      rw [List.flatMap_cons, ih (by simp)]
      simp

theorem flatMap_splitOn (d : Bytes) : (d.splitOn lf).flatMap (· ++ [lf]) = d ++ [lf] := by
  rw [flatMap_intercalate (List.splitOn_ne_nil lf d), List.intercalate_splitOn]

theorem lines_writeAll {vs : List Bytes} (h : ∀ v ∈ vs, Unbroken v) (rest : Bytes) :
    lines (vs.flatMap (writeData fieldData) ++ rest) = vs.map (fieldLine dataName) ++ lines rest := by
  induction vs with
  | nil => rfl
  | cons v vs ih =>
    rw [List.flatMap_cons, List.append_assoc, fieldData, lines_writeData (by decide) (h v (by simp)), ← fieldData,
      ih fun v hv => h v (by simp [hv])]
    rfl

structure Splittable (e : Event) : Prop where
  data_ne : e.data ≠ []
  data_cr : cr ∉ e.data
  id_unbroken : Unbroken e.id
  id_nul : 0 ∉ e.id
  event_unbroken : Unbroken e.event
  retry_eq : e.retry = []
  comment_eq : e.comment = []

instance (e : Event) : Decidable (Splittable e) :=
  decidable_of_iff
    (e.data ≠ [] ∧ cr ∉ e.data ∧ Unbroken e.id ∧ 0 ∉ e.id ∧ Unbroken e.event ∧ e.retry = [] ∧ e.comment = [])
    ⟨fun ⟨h1, h2, h3, h4, h5, h6, h7⟩ => ⟨h1, h2, h3, h4, h5, h6, h7⟩,
      fun ⟨h1, h2, h3, h4, h5, h6, h7⟩ => ⟨h1, h2, h3, h4, h5, h6, h7⟩⟩

def Event.message (e : Event) : Message := ⟨e.id, typeOf e.event, e.data⟩

theorem lines_split {opts : Options} (ho : opts.splitData) {e : Event} (h : Splittable e) (rest : Bytes) :
    lines (writeEvent opts e ++ rest) =
      fieldLine idName e.id :: ((e.data.splitOn lf).map (fieldLine dataName) ++ optLine eventName e.event) ++
        [] :: lines rest := by
  have hpieces : ∀ v ∈ e.data.splitOn lf, Unbroken v := fun v hv =>
    ⟨(mem_splitOn hv).1, fun hm => h.data_cr ((mem_splitOn hv).2 hm)⟩
  have hdata := List.length_pos_iff.2 h.data_ne
  simp only [writeEvent, writeFields, writeDataLines, writeComment, ho, hdata, h.retry_eq, h.comment_eq, if_true,
    List.length_nil, Nat.lt_irrefl, if_false, List.append_nil, List.append_assoc, List.singleton_append]
  rw [fieldId, lines_writeData (by decide) h.id_unbroken, lines_writeAll hpieces, fieldEvent,
    lines_optField (by decide) h.event_unbroken, lines_cons_lf]
  simp

theorem messages_split {opts : Options} (ho : opts.splitData) {e : Event} (h : Splittable e) {r : Reader}
    (hdata : r.data = []) (htyp : r.typ = []) (rest : Bytes) :
    messages r (lines (writeEvent opts e ++ rest)) = e.message :: messages ⟨[], [], e.id⟩ (lines rest) := by
  set fields := (e.data.splitOn lf).map (fieldLine dataName) ++ optLine eventName e.event with hfields
  have hne : ∀ l ∈ fieldLine idName e.id :: fields, l ≠ [] := by
    intro l hl
    rcases List.mem_cons.1 hl with rfl | hl
    · exact fieldLine_ne_nil _ _
    · rcases List.mem_append.1 hl with hl | hl
      · obtain ⟨v, -, rfl⟩ := List.mem_map.1 hl
        exact fieldLine_ne_nil _ _
      · exact ne_nil_of_mem_optLine hl
  have hafter : after r (fieldLine idName e.id :: fields) = ⟨e.data ++ [lf], e.event, e.id⟩ := by
    rw [after, List.foldl_cons, ← after, next_id h.id_nul, after_append, after_dataLines, flatMap_splitOn,
      after_optEvent (by simpa using htyp)]
    simp [hdata]
  rw [lines_split ho h, messages_append, messages_of_ne hne, hafter]
  simp [messages, out, Event.message]

/-- **Split data is read back.** With splitData and no TTL, a client reads exactly the events that were written if their
data is not empty and has no CR, id and name have no line end (and the id no NUL), and there is neither retry nor
comment. -/
theorem split_roundTrip (events : List (Event × ℕ)) (h : ∀ e ∈ events, Splittable e.1) :
    parse (serveEvents ⟨true, 0⟩ events) = events.map fun e => e.1.message := by
  -- the client is between messages before every event; only the last id goes on
  have hread : ∀ (events : List (Event × ℕ)), (∀ e ∈ events, Splittable e.1) → ∀ r : Reader, r.data = [] → r.typ = [] →
      messages r (lines (serveEvents ⟨true, 0⟩ events)) = events.map fun e => e.1.message := by
    intro events
    induction events with
    | nil => exact fun _ _ _ _ => rfl
    | cons e events ih =>
      intro h r hdata htyp
      have he := h e (by simp)
      have hgoes : e.1.ends = false := by simp [Event.ends, he.data_ne]
      rw [serveEvents, hgoes, expired]
      simp only [Bool.false_eq_true, if_false, ne_eq, not_true_eq_false, decide_false, Bool.false_and]
      rw [messages_split rfl he hdata htyp, ih (fun e he => h e (by simp [he])) _ rfl rfl]
      rfl
  rw [parse, stripBom_of_head]
  · exact hread events h .init rfl rfl
  · cases events with
    | nil => simp [serveEvents]
    | cons e events =>
      have hne := (h e (by simp)).data_ne
      have hhead := head_writeEvent ⟨true, 0⟩ hne (serveEvents ⟨true, 0⟩ events)
      simp [serveEvents, Event.ends, hne, expired, hhead]

def ascii (text : String) : Bytes := text.toList.map fun c => UInt8.ofNat c.toNat

/-- leading spaces and colons, empty lines and line ends at the end -/
def multiline : List (Event × ℕ) :=
  [({ Event.empty with id := ascii "7", data := ascii " :a\n\n  b\n", event := ascii "note" }, 0),
    ({ Event.empty with data := ascii "\n" }, 5)]

theorem split_multiline : (∀ e ∈ multiline, Splittable e.1) ∧
    parse (serveEvents ⟨true, 0⟩ multiline) = multiline.map fun e => e.1.message := by
  have h : ∀ e ∈ multiline, Splittable e.1 := by decide
  exact ⟨h, split_roundTrip multiline h⟩

/-! ## Events as they are

Without splitData: what is written for an event ends in an empty line, so that every event is read by a client that is
between messages. -/

def defaults : Options := ⟨false, 0⟩

def writeBody (e : Event) : Bytes := (if e.data.length > 0 then writeFields defaults e else []) ++ writeComment e

theorem ended_writeData (f d : Bytes) : Ended (writeData f d) := ended_snoc _

theorem ended_opt {c : Prop} [Decidable c] {a : Bytes} (h : Ended a) : Ended (if c then a else []) := by
  split_ifs
  · exact h
  · exact .inl rfl

theorem ended_writeDataLines (d : Bytes) : Ended (writeDataLines defaults d) := by
  simp only [writeDataLines, defaults, Bool.false_eq_true, if_false]
  split_ifs
  · exact ended_snoc d
  · exact ended_writeData _ _

theorem ended_writeFields (e : Event) : Ended (writeFields defaults e) :=
  (((ended_writeData _ _).append (ended_writeDataLines _)).append (ended_opt (ended_writeData _ _))).append
    (ended_opt (ended_writeData _ _))

theorem ended_writeBody (e : Event) : Ended (writeBody e) :=
  (ended_opt (ended_writeFields e)).append (ended_opt (ended_writeData _ _))

/-- events with an id and a retry of one line, that do not end the loop -/
structure Publishable (e : Event) : Prop where
  id_unbroken : Unbroken e.id
  retry_unbroken : Unbroken e.retry
  nonempty : e.data ≠ [] ∨ e.comment ≠ []

instance (e : Event) : Decidable (Publishable e) :=
  decidable_of_iff (Unbroken e.id ∧ Unbroken e.retry ∧ (e.data ≠ [] ∨ e.comment ≠ []))
    ⟨fun h => ⟨h.1, h.2.1, h.2.2⟩, fun h => ⟨h.1, h.2, h.3⟩⟩

theorem writeFields_ne_nil (e : Event) : writeFields defaults e ≠ [] := by
  simp [writeFields, fieldId, writeData_field]

theorem writeBody_ne_nil {e : Event} (h : Publishable e) : writeBody e ≠ [] := by
  rcases h.nonempty with hd | hc
  · simp [writeBody, List.length_pos_iff.2 hd, writeFields_ne_nil]
  · simp [writeBody, writeComment, List.length_pos_iff.2 hc, writeData]

variable {events : List (Event × ℕ)} {e : Event × ℕ}

theorem serveEvents_snoc (h : ∀ e ∈ events, Publishable e.1) (he : Publishable e.1) :
    serveEvents defaults (events ++ [e]) = serveEvents defaults events ++ (writeBody e.1 ++ [lf]) := by
  have hgoes : ∀ e : Event, Publishable e → e.ends = false := by
    intro e he
    rcases he.nonempty with hd | hc
    · simp [Event.ends, hd]
    · simp [Event.ends, hc]
  induction events with
  | nil => simp [serveEvents, hgoes _ he, expired, defaults, writeBody, writeEvent]
  | cons e' events ih =>
    have hrest := ih fun e he => h e (by simp [he])
    have hgo := hgoes _ (h e' (by simp))
    have hcons : ∀ l, serveEvents defaults (e' :: l) = writeEvent defaults e'.1 ++ serveEvents defaults l := by
      intro l
      simp [serveEvents, hgo, expired, defaults]
    rw [List.cons_append, hcons, hcons, hrest, List.append_assoc]

theorem ended_serveEvents (h : ∀ e ∈ events, Publishable e.1) : Ended (serveEvents defaults events) := by
  induction events using List.reverseRecOn with
  | nil => exact .inl rfl
  | append_singleton events e ih =>
    rw [serveEvents_snoc (fun e he => h e (by simp [he])) (h e (by simp)), ← List.append_assoc]
    exact ended_snoc _

theorem serveEvents_ne_nil (hne : events ≠ []) (h : ∀ e ∈ events, Publishable e.1) :
    serveEvents defaults events ≠ [] := by
  induction events using List.reverseRecOn with
  | nil => exact absurd rfl hne
  | append_singleton events e ih =>
    rw [serveEvents_snoc (fun e he => h e (by simp [he])) (h e (by simp))]
    simp

/-- a text after these events: at the start of the stream a byte order mark is skipped -/
def atEnd (events : List (Event × ℕ)) (text : Bytes) : Bytes := if events = [] then stripBom text else text

theorem lines_serve_snoc (h : ∀ e ∈ events, Publishable e.1) (he : Publishable e.1) :
    lines (stripBom (serveEvents defaults (events ++ [e]))) =
      lines (stripBom (serveEvents defaults events)) ++ (lines (atEnd events (writeBody e.1)) ++ [[]]) := by
  have hbody := ended_writeBody e.1
  have hblank : lines [lf] = [[]] := lines_cons_lf []
  rw [serveEvents_snoc h he]
  by_cases hevents : events = []
  · subst hevents
    have hnil : lines (stripBom []) = [] := rfl
    rw [serveEvents, List.nil_append, hbody.stripBom_append (writeBody_ne_nil he), hbody.stripBom.lines_append, hblank,
      hnil, List.nil_append, atEnd, if_pos rfl]
  · have hserve := ended_serveEvents h
    rw [hserve.stripBom_append (serveEvents_ne_nil hevents h), hserve.stripBom.lines_append, hbody.lines_append, hblank,
      atEnd, if_neg hevents]

def seen (events : List (Event × ℕ)) : List (Bytes × Bytes) :=
  (parse (serveEvents defaults events)).map Message.shown

theorem seen_snoc (h : ∀ e ∈ events, Publishable e.1) (he : Publishable e.1) :
    ∃ r : Reader, r.data = [] ∧ r.typ = [] ∧ seen (events ++ [e]) =
      seen events ++ (messages r (lines (atEnd events (writeBody e.1)) ++ [[]])).map Message.shown := by
  refine ⟨after .init (lines (stripBom (serveEvents defaults events))), ?_, ?_, ?_⟩
  rotate_left 2
  · rw [seen, parse, lines_serve_snoc h he, messages_append, List.map_append]
    rfl
  all_goals
    induction events using List.reverseRecOn with
    | nil => rfl
    | append_singleton events e' _ =>
      rw [lines_serve_snoc (fun e he => h e (by simp [he])) (h e' (by simp)), after_append, after_append]
      rfl

/-! ## Isolation -/

/-- data and a name that are read as themselves -/
structure Tidy (e : Event) : Prop where
  data_unbroken : Unbroken e.data
  data_colon : ¬ [colon] <+: e.data
  event_unbroken : Unbroken e.event

instance (e : Event) : Decidable (Tidy e) :=
  decidable_of_iff (Unbroken e.data ∧ ¬ [colon] <+: e.data ∧ Unbroken e.event)
    ⟨fun h => ⟨h.1, h.2.1, h.2.2⟩, fun h => ⟨h.1, h.2, h.3⟩⟩

theorem lines_writeFields {e : Event} (h : Publishable e) :
    lines (writeFields defaults e) = fieldLine idName e.id :: (lines (writeDataLines defaults e.data) ++
      (lines (if e.event.length > 0 then writeData fieldEvent e.event else []) ++ optLine retryName e.retry)) := by
  have hevent : Ended (if e.event.length > 0 then writeData fieldEvent e.event else []) :=
    ended_opt (ended_writeData _ _)
  have hretry := lines_optField (n := retryName) (by decide) h.retry_unbroken []
  rw [writeFields, List.append_assoc, List.append_assoc, fieldId, lines_writeData (by decide) h.id_unbroken,
    (ended_writeDataLines e.data).lines_append, hevent.lines_append]
  simpa [fieldRetry, lines, linesFrom] using hretry

theorem lines_event {e : Event} (h : Unbroken e.event) :
    lines (if e.event.length > 0 then writeData fieldEvent e.event else []) = optLine eventName e.event := by
  have hevent := lines_optField (n := eventName) (by decide) h []
  simpa [fieldEvent, lines, linesFrom] using hevent

theorem lines_tidy {e : Event} (h : Publishable e) (ht : Tidy e) :
    lines (writeFields defaults e) = fieldLine idName e.id ::
      ([fieldLine dataName e.data] ++ (optLine eventName e.event ++ optLine retryName e.retry)) := by
  have hdata : lines (writeDataLines defaults e.data) = [fieldLine dataName e.data] := by
    have hline := lines_writeData (n := dataName) (by decide) ht.data_unbroken []
    simpa [writeDataLines, defaults, ht.data_colon, fieldData, lines, linesFrom] using hline
  rw [lines_writeFields h, hdata, lines_event ht.event_unbroken]

theorem sum_room_optLine {n : Bytes} (hn : colon ∉ n) (hne : n ≠ dataName) (v : Bytes) :
    ((optLine n v).map room).sum = 0 := by
  unfold optLine
  split_ifs
  · rfl
  · simp [room, name_fieldLine hn, hne]

/-- data that is broken or starts with a colon does not have the room to come out as one message -/
theorem sum_room_writeDataLines {d : Bytes} (h : ¬ (Unbroken d ∧ ¬ [colon] <+: d)) :
    ((lines (writeDataLines defaults d)).map room).sum ≤ d.length := by
  simp only [writeDataLines, defaults, Bool.false_eq_true, if_false]
  split_ifs with hcolon
  · calc ((lines (d ++ [lf])).map room).sum
        ≤ ((lines (d ++ [lf])).map List.length).sum := sum_room_le _
      _ ≤ d.countP inLine := sum_length_lines_le d
      _ ≤ d.length := List.countP_le_length
  · have hbroken : ¬ Unbroken d := fun hu => h ⟨hu, hcolon⟩
    have hne : d ≠ [] := by
      rintro rfl
      exact hbroken (by decide)
    have hline : writeData fieldData d = dataName ++ colon :: space :: (d ++ [lf]) := by
      rw [fieldData, writeData_field, fieldLine, if_neg hne]
      simp
    rw [hline]
    exact sum_room_field_le hbroken

theorem tidy_of_shown {e : Event} (h : Publishable e) {r : Reader} (hdata : r.data = []) (htyp : r.typ = [])
    (hshown : (messages r (lines (writeFields defaults e) ++ [[]])).map Message.shown = [(typeOf e.event, e.data)]) :
    Tidy e := by
  obtain ⟨m, hm, hme⟩ : ∃ m ∈ messages r (lines (writeFields defaults e) ++ [[]]),
      m.shown = (typeOf e.event, e.data) := by
    have hmem : (typeOf e.event, e.data) ∈
        (messages r (lines (writeFields defaults e) ++ [[]])).map Message.shown := by simp [hshown]
    simpa using hmem
  obtain ⟨hmtyp, hmdata⟩ := Prod.mk.inj hme
  have hevent : Unbroken e.event := by
    have hls : ∀ l ∈ lines (writeFields defaults e) ++ [[]], Unbroken l := by
      intro l hl
      rcases List.mem_append.1 hl with hl | hl
      · exact unbroken_of_mem_lines hl
      · rw [List.mem_singleton.1 hl]
        decide
    have htype := unbroken_typ (by rw [htyp]; decide) hls hm
    rw [hmtyp, typeOf] at htype
    split_ifs at htype with hempty
    · rw [hempty]
      decide
    · exact htype
  -- the id, the name and the retry have no room for data
  have hid : room (fieldLine idName e.id) = 0 := by
    have hname : name (fieldLine idName e.id) = idName := name_fieldLine (by decide) _
    simp [room, hname, show idName ≠ dataName by decide]
  have hblank : room [] = 0 := by decide
  have hlen := length_data_le hm
  rw [lines_writeFields h, lines_event hevent] at hlen
  simp only [hdata, hmdata, List.map_cons, List.map_append, List.sum_cons, List.sum_append,
    sum_room_optLine (n := eventName) (by decide) (by decide),
    sum_room_optLine (n := retryName) (by decide) (by decide), List.map_nil, List.sum_nil,
    List.length_nil] at hlen
  have htidy : Unbroken e.data ∧ ¬ [colon] <+: e.data := by
    by_contra hnot
    have := sum_room_writeDataLines hnot
    omega
  exact ⟨htidy.1, htidy.2, hevent⟩

theorem shown_iff {e : Event} (h : Publishable e) (ht : Tidy e) {r : Reader} (hdata : r.data = []) (htyp : r.typ = [])
    (cl : List Bytes) :
    (messages r (lines (writeFields defaults e) ++ (cl ++ [[]]))).map Message.shown = [(typeOf e.event, e.data)] ↔
      NoData cl ∧ typeOf (retype e.event cl) = typeOf e.event := by
  have hidName : name (fieldLine idName e.id) = idName := name_fieldLine (by decide) _
  have hlines := lines_tidy h ht
  have hne : ∀ l ∈ lines (writeFields defaults e), l ≠ [] := by
    intro l hl
    rw [hlines] at hl
    simp only [List.cons_append, List.nil_append, List.mem_cons, List.mem_append] at hl
    rcases hl with rfl | rfl | hl | hl
    · exact fieldLine_ne_nil _ _
    · exact fieldLine_ne_nil _ _
    · exact ne_nil_of_mem_optLine hl
    · exact ne_nil_of_mem_optLine hl
  have hretry : ∀ r : Reader, after r (optLine retryName e.retry) = r := by
    intro r
    unfold optLine
    split_ifs <;> rfl
  set r' := next r (fieldLine idName e.id) with hr'
  have hdata' : r'.data = [] := by
    rw [next_data_eq (fieldLine_ne_nil _ _) (by rw [hidName]; decide), hdata]
  have htyp' : r'.typ = [] := by
    rw [next_typ_eq (fieldLine_ne_nil _ _) (by rw [hidName]; decide), htyp]
    rfl
  have hafter : after r (lines (writeFields defaults e)) = ⟨e.data ++ [lf], e.event, r'.lastId⟩ := by
    have hone := after_dataLines r' [e.data]
    rw [List.map_singleton] at hone
    rw [hlines, after, List.foldl_cons, ← after, after_append, after_append, hone,
      after_optEvent (by simpa using htyp'), hretry]
    simp [hdata']
  rw [messages_append, messages_of_ne hne, hafter]
  exact pending_iff rfl _ cl

theorem atEnd_of_data (events : List (Event × ℕ)) {e : Event} (h : e.data ≠ []) :
    atEnd events (writeBody e) = writeFields defaults e ++ writeComment e := by
  have hbody : writeBody e = writeFields defaults e ++ writeComment e := by
    rw [writeBody, if_pos (List.length_pos_iff.2 h)]
  have hhead : (writeBody e).head? = some 105 := by
    rw [hbody]
    rfl
  unfold atEnd
  split_ifs
  · rw [stripBom_of_head (by rw [hhead]; decide), hbody]
  · exact hbody

/-- the lines that the comment of an event becomes, after the events given -/
def commentLines (events : List (Event × ℕ)) (e : Event) : List Bytes :=
  lines ((if e.data = [] then atEnd events e.comment else e.comment) ++ [lf])

/-- what a client is to show of the events: one message for each that has data -/
def expected (events : List (Event × ℕ)) : List (Bytes × Bytes) :=
  (events.filter fun e => e.1.data ≠ []).map fun e => (typeOf e.1.event, e.1.data)

def withoutComments (events : List (Event × ℕ)) : List (Event × ℕ) :=
  (events.filter fun e => e.1.data ≠ []).map fun e => ({ e.1 with comment := [] }, e.2)

/-- one message for each event with data, and the same with the comments as without them -/
def Isolated (events : List (Event × ℕ)) : Prop :=
  seen events = expected events ∧ seen (withoutComments events) = expected events

instance (events : List (Event × ℕ)) : Decidable (Isolated events) := inferInstanceAs (Decidable (_ ∧ _))

/-- tidy where there is data, and a comment none of whose lines is data or changes the name -/
def Clean (events : List (Event × ℕ)) (e : Event × ℕ) : Prop :=
  NoData (commentLines events e.1) ∧
    (e.1.data ≠ [] → Tidy e.1 ∧ typeOf (retype e.1.event (commentLines events e.1)) = typeOf e.1.event)

instance (events : List (Event × ℕ)) (e : Event × ℕ) : Decidable (Clean events e) := inferInstanceAs (Decidable (_ ∧ _))

theorem publishable_withoutComments (h : ∀ e ∈ events, Publishable e.1) :
    ∀ e ∈ withoutComments events, Publishable e.1 := by
  intro e he
  obtain ⟨e', he', rfl⟩ := List.mem_map.1 he
  obtain ⟨hmem, hdata⟩ := List.mem_filter.1 he'
  have hp := h e' hmem
  exact ⟨hp.id_unbroken, hp.retry_unbroken, .inl (by simpa using hdata)⟩

theorem seen_comment_iff (h : ∀ e ∈ events, Publishable e.1) (he : Publishable e.1) (hdata : e.1.data = []) :
    seen (events ++ [e]) = seen events ↔ NoData (commentLines events e.1) := by
  have hc : e.1.comment ≠ [] := by simpa [hdata] using he.nonempty
  have hbody : writeBody e.1 = e.1.comment ++ [lf] := by
    simp [writeBody, hdata, writeComment, List.length_pos_iff.2 hc, writeData]
  have hlines : lines (atEnd events (writeBody e.1)) = commentLines events e.1 := by
    rw [commentLines, hbody]
    unfold atEnd
    split_ifs
    · rw [stripBom_append]
    · rfl
  obtain ⟨r, hr, -, hseen⟩ := seen_snoc h he
  rw [hseen, hlines, List.append_right_eq_self, List.map_eq_nil_iff, idle_iff hr]

theorem seen_data_iff (h : ∀ e ∈ events, Publishable e.1)
    (he : Publishable e.1) (hdata : e.1.data ≠ []) (ht : Tidy e.1) :
    seen (events ++ [e]) = seen events ++ [(typeOf e.1.event, e.1.data)] ↔
      NoData (commentLines events e.1) ∧ typeOf (retype e.1.event (commentLines events e.1)) = typeOf e.1.event := by
  obtain ⟨r, hr, htyp, hseen⟩ := seen_snoc h he
  rw [hseen, atEnd_of_data events hdata, (ended_writeFields e.1).lines_append, List.append_assoc,
    List.append_cancel_left_eq, shown_iff he ht hr htyp, commentLines, if_neg hdata, writeComment]
  by_cases hc : e.1.comment = []
  · -- no comment, or the empty line of an empty one
    have hnil : lines [] = [] := rfl
    have hblank : lines [lf] = [[]] := lines_cons_lf []
    have hname : name [] ≠ dataName := by decide
    simp [hc, hnil, hblank, NoData, retype, hname]
  · simp [List.length_pos_iff.2 hc, writeData]

theorem seen_bare_iff (h : ∀ e ∈ events, Publishable e.1)
    (he : Publishable e.1) (hdata : e.1.data ≠ []) (hc : e.1.comment = []) :
    seen (events ++ [e]) = seen events ++ [(typeOf e.1.event, e.1.data)] ↔ Tidy e.1 := by
  obtain ⟨r, hr, htyp, hseen⟩ := seen_snoc h he
  have hnil : writeComment e.1 = [] := by simp [writeComment, hc]
  rw [hseen, atEnd_of_data events hdata, hnil, List.append_nil, List.append_cancel_left_eq]
  constructor
  · exact tidy_of_shown he hr htyp
  · intro ht
    have hshown := shown_iff he ht hr htyp []
    exact hshown.2 ⟨by simp [NoData], rfl⟩

/-- **One more event** keeps the isolation exactly when it is clean. -/
theorem isolated_snoc (h : ∀ e ∈ events, Publishable e.1) (hi : Isolated events)
    (he : Publishable e.1) : Isolated (events ++ [e]) ↔ Clean events e := by
  obtain ⟨hall, hbare⟩ := hi
  by_cases hdata : e.1.data = []
  · have hexpected : expected (events ++ [e]) = expected events := by simp [expected, hdata]
    have hwithout : withoutComments (events ++ [e]) = withoutComments events := by simp [withoutComments, hdata]
    rw [Isolated, hexpected, hwithout, ← hall, seen_comment_iff h he hdata]
    simp [Clean, hdata, hbare, hall]
  · set bare : Event × ℕ := ({ e.1 with comment := [] }, e.2) with hb
    have hexpected : expected (events ++ [e]) = expected events ++ [(typeOf e.1.event, e.1.data)] := by
      simp [expected, hdata]
    have hwithout : withoutComments (events ++ [e]) = withoutComments events ++ [bare] := by
      simp [withoutComments, hdata, hb]
    have htidy : Tidy bare.1 ↔ Tidy e.1 := ⟨fun h => ⟨h.1, h.2, h.3⟩, fun h => ⟨h.1, h.2, h.3⟩⟩
    have hread := seen_bare_iff (e := bare) (publishable_withoutComments h)
      ⟨he.id_unbroken, he.retry_unbroken, .inl hdata⟩ hdata rfl
    rw [htidy, hbare] at hread
    rw [Isolated, hexpected, hwithout, hread]
    constructor
    · rintro ⟨hseen, ht⟩
      rw [← hall, seen_data_iff h he hdata ht] at hseen
      exact ⟨hseen.1, fun _ => ⟨ht, hseen.2⟩⟩
    · rintro ⟨hno, hrest⟩
      obtain ⟨ht, htype⟩ := hrest hdata
      rw [← hall, seen_data_iff h he hdata ht]
      exact ⟨⟨hno, htype⟩, ht⟩

def publish (events : List (Event × ℕ)) (e : Event × ℕ) : List (Event × ℕ) := events ++ [e]

/-- **Isolation.** For the default server and events with an id and a retry of one line and with data or a comment: the
client dispatches one message for each event with data, with that data and name and in order, and the comments change
none of them, after every event, exactly when every event is clean. -/
theorem isolated_iff (events : List (Event × ℕ)) (h : ∀ e ∈ events, Publishable e.1) :
    Always publish Isolated [] events ↔ Along publish Clean [] events := by
  refine always_iff_along (I := fun s => (∀ e ∈ s, Publishable e.1) ∧ Isolated s) (H := fun _ e => Publishable e.1)
    (fun s hs => hs.2) ?_ ?_ ⟨by simp, by decide⟩ (along_forall.2 h)
  · intro s e hs he hc
    refine ⟨?_, (isolated_snoc hs.1 hs.2 he).2 hc⟩
    intro e' he'
    rcases List.mem_append.1 he' with hm | hm
    · exact hs.1 e' hm
    · rw [List.mem_singleton.1 hm]
      exact he
  · intro s e hs he hc hi
    exact hc ((isolated_snoc hs.1 hs.2 he).1 hi)

theorem isolated_note :
    let events := [({ Event.empty with data := ascii "a: b", event := ascii "note", comment := ascii ": c" }, 0)]
    (∀ e ∈ events, Publishable e.1) ∧ Along publish Clean [] events ∧ Always publish Isolated [] events := by
  intro events
  have h : ∀ e ∈ events, Publishable e.1 := by decide
  have hclean : Along publish Clean [] events := by decide
  exact ⟨h, hclean, (isolated_iff events h).2 hclean⟩

/-- data with an empty line in it, data that starts with a colon, and the comments `data: b` and `event: x` -/
def forged : List (Event × ℕ) :=
  [({ Event.empty with data := ascii "a\n\ndata: b" }, 0), ({ Event.empty with data := ascii ":a" }, 0),
    ({ Event.empty with comment := ascii "data: b" }, 0),
    ({ Event.empty with data := ascii "a", comment := ascii "event: x" }, 0)]

/-- **Forged events.** Of these events the first is read as two, the second as none, the third, which has no data, as
one, and the fourth under another name. -/
theorem forged_events :
    (∀ e ∈ forged, Publishable e.1 ∧ ¬ Isolated [e]) ∧ forged.map (fun e => seen [e]) =
      [[(ascii "message", ascii "a"), (ascii "message", ascii "b")], [], [(ascii "message", ascii "b")],
        [(ascii "x", ascii "a")]] := by
  constructor <;> decide

end LuluExt.Sse
