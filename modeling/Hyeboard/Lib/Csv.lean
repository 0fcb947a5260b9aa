import Mathlib.Data.List.Infix
import Hyeboard.Lib.CodeUnits
/-!
# Comma-separated values

A reader of RFC 4180 files, unit by unit: records of fields, each with its line break,
the last one with or without; a field in quotes has its quotes doubled. What a writer
puts down field by field is read back.
-/

namespace Hyeboard.Csv

def comma : UInt16 := unit ','

def quotation : UInt16 := unit '"'

def carriageReturn : UInt16 := 13

def lineFeed : UInt16 := 10

/-- A unit that a field without quotes cannot have. -/
def isSpecial (u : UInt16) : Bool := u == comma || u == quotation || u == carriageReturn || u == lineFeed

/-! ## The reader -/

/-- Where the reader is: before a field, in one with or without quotes, behind a quote in one with quotes, or behind a carriage return. -/
inductive Mode where
  | start
  | plain
  | quoted
  | closing
  | ending
deriving DecidableEq

structure Reader where
  mode : Mode
  /-- The field, the record and the records so far. -/
  field : Text
  record : List Text
  records : List (List Text)

/-- The field is complete. -/
def Reader.finishField (r : Reader) (mode : Mode) : Reader := ⟨mode, [], r.record ++ [r.field], r.records⟩

def Reader.put (r : Reader) (mode : Mode) (u : UInt16) : Reader := { r with mode, field := r.field ++ [u] }

/-- Behind a field that may end here: a comma or a line break. -/
def Reader.endField (r : Reader) (u : UInt16) : Option Reader :=
  if u = comma then some (r.finishField .start) else if u = carriageReturn then some (r.finishField .ending) else none

def Reader.step (r : Reader) (u : UInt16) : Option Reader :=
  match r.mode with
  | .start =>
    if u = quotation then some { r with mode := .quoted } else if isSpecial u then r.endField u else some (r.put .plain u)
  | .plain => if isSpecial u then r.endField u else some (r.put .plain u)
  | .quoted => if u = quotation then some { r with mode := .closing } else some (r.put .quoted u)
  | .closing => if u = quotation then some (r.put .quoted u) else r.endField u
  | .ending => if u = lineFeed then some ⟨.start, [], [], r.records ++ [r.record]⟩ else none

def Reader.feed (r : Reader) (t : Text) : Option Reader := t.foldlM Reader.step r

/-- The end of the file: the last record may lack its line break. -/
def Reader.finish (r : Reader) : Option (List (List Text)) :=
  match r.mode with
  | .start => if r.record = [] then some r.records else some (r.records ++ [r.record ++ [r.field]])
  | .plain | .closing => some (r.records ++ [r.record ++ [r.field]])
  | .quoted | .ending => none

def read (t : Text) : Option (List (List Text)) := (Reader.feed ⟨.start, [], [], []⟩ t).bind Reader.finish

/-! ## The writer -/

/-- A field with a special unit is put in quotes. -/
def encode (t : Text) : Text :=
  if t.any isSpecial then quotation :: t.flatMap (fun u => if u = quotation then [quotation, quotation] else [u]) ++ [quotation] else t

/-- A record of at least one field, without its line break. -/
def encodeRecord (fields : List Text) : Text := [comma].intercalate (fields.map encode)

/-- Records with their line breaks. -/
def encodeRecords (records : List (List Text)) : Text := records.flatMap fun fields => encodeRecord fields ++ [carriageReturn, lineFeed]

/-! ## What is written is read back -/

section
variable {r : Reader} {t front back : Text} {u : UInt16}

theorem Reader.feed_cons : r.feed (u :: t) = (r.step u).bind (Reader.feed · t) := rfl

theorem Reader.feed_append : r.feed (front ++ back) = (r.feed front).bind (Reader.feed · back) := List.foldlM_append

/-- Behind a field, all of it. -/
structure Reader.Read (r : Reader) (field : Text) (record : List Text) (records : List (List Text)) : Prop where
  mode : r.mode = .start ∨ r.mode = .plain ∨ r.mode = .closing
  field : r.field = field
  record : r.record = record
  records : r.records = records

theorem isSpecial_comma : isSpecial comma = true := by decide

theorem isSpecial_carriageReturn : isSpecial carriageReturn = true := by decide

variable {field : Text} {record : List Text} {records : List (List Text)}

/-- A comma or a carriage return ends a field. -/
theorem Reader.Read.step (h : r.Read field record records) (hu : isSpecial u = true) (hquote : u ≠ quotation) : r.step u = r.endField u := by
  unfold Reader.step
  rcases h.mode with hmode | hmode | hmode
  · simp only [hmode, hu, hquote, if_true, if_false]
  · simp only [hmode, hu, if_true]
  · simp only [hmode, hquote, if_false]

theorem Reader.Read.comma (h : r.Read field record records) : r.step comma = some ⟨.start, [], record ++ [field], records⟩ := by
  rw [h.step isSpecial_comma (by decide), Reader.endField, if_pos rfl, Reader.finishField, h.field, h.record, h.records]

theorem Reader.Read.lineBreak (h : r.Read field record records) :
    r.feed [carriageReturn, lineFeed] = some ⟨.start, [], [], records ++ [record ++ [field]]⟩ := by
  rw [Reader.feed_cons, h.step isSpecial_carriageReturn (by decide), Reader.endField, if_neg (by decide), if_pos rfl, Reader.finishField,
    h.field, h.record, h.records]
  rfl

theorem Reader.feed_plain (hmode : r.mode = .start ∨ r.mode = .plain) (h : t.any isSpecial = false) :
    ∃ r' : Reader, r.feed t = some r' ∧ r'.Read (r.field ++ t) r.record r.records := by
  induction t generalizing r with
  | nil =>
    rw [List.append_nil]
    exact ⟨r, rfl, by tauto, rfl, rfl, rfl⟩
  | cons u t ih =>
    rw [List.any_cons, Bool.or_eq_false_iff] at h
    have hquote : u ≠ quotation := by
      rintro rfl
      exact absurd h.1 (by decide)
    have hstep : r.step u = some (r.put .plain u) := by
      unfold Reader.step
      rcases hmode with hmode | hmode
      · simp [hmode, hquote, h.1]
      · simp [hmode, h.1]
    obtain ⟨r', hfeed, hread⟩ := ih (.inr rfl : (r.put .plain u).mode = .start ∨ _) h.2
    refine ⟨r', ?_, ?_⟩
    · rw [Reader.feed_cons, hstep]
      exact hfeed
    · rw [← List.singleton_append, ← List.append_assoc]
      exact hread

/-- In quotes every unit is taken as it is, and a doubled quote as one. -/
theorem Reader.feed_quoted (hmode : r.mode = .quoted) :
    r.feed (t.flatMap fun u => if u = quotation then [quotation, quotation] else [u]) = some { r with field := r.field ++ t } := by
  induction t generalizing r with
  | nil => rw [List.append_nil]; rfl
  | cons u t ih =>
    have hput : r.feed (if u = quotation then [quotation, quotation] else [u]) = some (r.put .quoted u) := by
      by_cases hquote : u = quotation
      · rw [if_pos hquote, hquote]
        simp [Reader.feed, Reader.step, hmode, Reader.put]
      · rw [if_neg hquote]
        simp [Reader.feed, Reader.step, hmode, hquote]
    rw [List.flatMap_cons, Reader.feed_append, hput, Option.bind_some, ih rfl]
    simp [Reader.put, hmode]

theorem Reader.feed_encode (hmode : r.mode = .start) (hfield : r.field = []) :
    ∃ r' : Reader, r.feed (encode t) = some r' ∧ r'.Read t r.record r.records := by
  unfold encode
  split
  case isTrue =>
    have hopen : r.step quotation = some { r with mode := .quoted } := by simp [Reader.step, hmode]
    refine ⟨⟨.closing, t, r.record, r.records⟩, ?_, .inr (.inr rfl), rfl, rfl, rfl⟩
    rw [List.cons_append, Reader.feed_cons, hopen, Option.bind_some, Reader.feed_append, Reader.feed_quoted rfl]
    simp [Reader.feed, Reader.step, hfield]
  case isFalse hplain =>
    have hread := Reader.feed_plain (.inl hmode) (Bool.not_eq_true _ ▸ hplain)
    rwa [hfield, List.nil_append] at hread

/-- A record and its line break. -/
theorem Reader.feed_record {fields : List Text} (hne : fields ≠ []) (hmode : r.mode = .start) (hfield : r.field = []) :
    r.feed (encodeRecord fields ++ [carriageReturn, lineFeed]) = some ⟨.start, [], [], r.records ++ [r.record ++ fields]⟩ := by
  induction fields generalizing r with
  | nil => exact absurd rfl hne
  | cons field fields ih =>
    obtain ⟨r', hfeed, hread⟩ := Reader.feed_encode hmode hfield (t := field)
    cases fields with
    | nil =>
      rw [encodeRecord, List.map_cons, List.map_nil, List.intercalate_singleton, Reader.feed_append, hfeed]
      exact hread.lineBreak
    | cons next fields =>
      have hsplit : encodeRecord (field :: next :: fields) = encode field ++ (comma :: encodeRecord (next :: fields)) := by
        simp [encodeRecord, List.intercalate]
      have hrest := ih (List.cons_ne_nil next fields) (r := ⟨.start, [], r.record ++ [field], r.records⟩) rfl rfl
      rw [hsplit, List.append_assoc, Reader.feed_append, hfeed, Option.bind_some, List.cons_append, Reader.feed_cons, hread.comma,
        Option.bind_some, hrest, List.append_assoc]
      rfl

theorem Reader.feed_records {lines : List (List Text)} (hne : ∀ fields ∈ lines, fields ≠ []) (records : List (List Text)) :
    Reader.feed ⟨.start, [], [], records⟩ (encodeRecords lines) = some ⟨.start, [], [], records ++ lines⟩ := by
  induction lines generalizing records with
  | nil => rw [List.append_nil]; rfl
  | cons fields lines ih =>
    rw [List.forall_mem_cons] at hne
    rw [encodeRecords, List.flatMap_cons, Reader.feed_append, Reader.feed_record hne.1 rfl rfl, Option.bind_some]
    refine (ih hne.2 _).trans ?_
    rw [List.nil_append, List.append_assoc]
    rfl

end

/-- Records of at least one field each are read back, whatever their fields are. -/
theorem read_encodeRecords {records : List (List Text)} (hne : ∀ fields ∈ records, fields ≠ []) :
    read (encodeRecords records) = some records := by
  rw [read, Reader.feed_records hne []]
  rfl

example : read (units "a,\"b,\"\"\"\r\n") = some [[units "a", units "b,\""]] := by decide +kernel

end Hyeboard.Csv
