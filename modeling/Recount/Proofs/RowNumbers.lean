import Recount.File.Csv
import Recount.Proofs.File.Table

/-!
# The numbers of rows

The rows of a file are numbered as its records are, and a record is a line that is not empty. So the
number of a row is that of its line just if no line before it is empty.
-/

/-! ## Lines

Where no field holds a line break, a text is read line by line: a line that is empty is passed over,
and every other one is a record. -/

namespace Recount.Csv

variable {separator : Char} {r : Reading} {c : Char} {cs line ending rest : List Char}
  {done : List (List String)}

/-- The lines of a text, without the breaks between them. -/
def lines : List Char → List (List Char)
  | [] => [[]]
  | '\r' :: '\n' :: cs => [] :: lines cs
  | c :: cs =>
    if isBreak c then [] :: lines cs
    else match lines cs with
      | [] => [[c]]
      | line :: rest => (c :: line) :: rest

/-- A break between lines. -/
def lineBreaks : List (List Char) := [['\r', '\n'], ['\n'], ['\r']]

/-- No field holds a line break. -/
def BreakFree (records : List (List String)) : Prop :=
  ∀ record ∈ records, ∀ field ∈ record, ∀ c ∈ field.toList, isBreak c = false

instance (records : List (List String)) : Decidable (BreakFree records) :=
  inferInstanceAs (Decidable (∀ record ∈ records, ∀ field ∈ record, ∀ c ∈ field.toList,
    isBreak c = false))

theorem lines_ne_nil : lines cs ≠ [] := by
  unfold lines
  split
  · simp
  · simp
  · split
    · simp
    · split <;> simp

theorem lines_cons {lines' : List (List Char)} (hbreak : isBreak c = false)
    (hlines : lines cs = line :: lines') : lines (c :: cs) = (c :: line) :: lines' := by
  have hpair : ∀ cs', c = '\r' → cs = '\n' :: cs' → False := by
    rintro cs' rfl -
    cases hbreak
  rw [lines, if_neg (by simp [hbreak]), hlines]
  exact hpair

/-- A text is one line, or a line that ends and further lines. -/
theorem exists_line (cs : List Char) : ∃ line, (∀ c ∈ line, isBreak c = false) ∧
    (cs = line ∧ lines cs = [line] ∨ ∃ ending ∈ lineBreaks, ∃ rest,
      cs = line ++ (ending ++ rest) ∧ lines cs = line :: lines rest) := by
  induction cs using lines.induct with
  | case1 => exact ⟨[], by simp, .inl ⟨rfl, by rw [lines]⟩⟩
  | case2 cs ih =>
    refine ⟨[], by simp, .inr ⟨['\r', '\n'], by simp [lineBreaks], cs, rfl, ?_⟩⟩
    rw [lines]
  | case3 c cs hpair hbreak ih =>
    have hends : [c] ∈ lineBreaks := by
      rw [isBreak, Bool.or_eq_true, beq_iff_eq, beq_iff_eq] at hbreak
      rcases hbreak with rfl | rfl <;> simp [lineBreaks]
    refine ⟨[], by simp, .inr ⟨[c], hends, cs, rfl, ?_⟩⟩
    rw [lines, if_pos hbreak]
    exact hpair
  | case4 c cs hpair hbreak hnil ih => exact absurd hnil lines_ne_nil
  | case5 c cs hpair hbreak line rest hlines ih =>
    have hc := Bool.eq_false_iff.mpr hbreak
    obtain ⟨line', hplain, ⟨rfl, hline⟩ | ⟨ending, hending, rest', rfl, hline⟩⟩ := ih
    · exact ⟨c :: cs, List.forall_mem_cons.mpr ⟨hc, hplain⟩, .inl ⟨rfl, lines_cons hc hline⟩⟩
    · exact ⟨c :: line', List.forall_mem_cons.mpr ⟨hc, hplain⟩,
        .inr ⟨ending, hending, rest', rfl, lines_cons hc hline⟩⟩

/-- Along the lines of a text. -/
@[elab_as_elim]
theorem lines_induction {motive : List Char → Prop}
    (last : ∀ line, (∀ c ∈ line, isBreak c = false) → lines line = [line] → motive line)
    (ended : ∀ line ending rest, (∀ c ∈ line, isBreak c = false) → ending ∈ lineBreaks →
      lines (line ++ (ending ++ rest)) = line :: lines rest → motive rest →
      motive (line ++ (ending ++ rest))) (cs : List Char) : motive cs := by
  induction hlength : cs.length using Nat.strongRecOn generalizing cs with
  | ind length ih =>
    subst hlength
    obtain ⟨line, hline, ⟨rfl, hlines⟩ | ⟨ending, hending, rest, rfl, hlines⟩⟩ := exists_line cs
    · exact last cs hline hlines
    · have hpos : 0 < ending.length := by
        simp only [lineBreaks, List.mem_cons, List.not_mem_nil, or_false] at hending
        rcases hending with rfl | rfl | rfl <;> decide
      have hshorter : rest.length < (line ++ (ending ++ rest)).length := by
        simp only [List.length_append]
        omega
      exact ended line ending rest hline hending hlines (ih rest.length hshorter rest rfl)

/-- No line holds a line break. -/
theorem isBreak_of_mem_lines (hmem : line ∈ lines cs) : ∀ c ∈ line, isBreak c = false := by
  induction cs using lines_induction with
  | last only honly hlines =>
    rw [hlines, List.mem_singleton] at hmem
    exact hmem ▸ honly
  | ended first ending rest hfirst hending hlines ih =>
    rw [hlines, List.mem_cons] at hmem
    rcases hmem with rfl | hmem
    · exact hfirst
    · exact ih hmem

/-! ## The reader

The reader never looks back at what it has read, and loses nothing of it. -/

/-- What is held by a reading. -/
def Reading.Holds (r : Reading) (c : Char) : Prop :=
  c ∈ r.chars ∨ (∃ field ∈ r.fields, c ∈ field.toList) ∨
    ∃ record ∈ r.records, ∃ field ∈ record, c ∈ field.toList

/-- Before a record there is nothing of it. -/
def Reading.Settled (r : Reading) : Prop := r.place = .record → r.fields = [] ∧ r.chars = []

/-- The reading with records that were read before. -/
def Reading.after (done : List (List String)) (r : Reading) : Reading :=
  { r with records := r.records ++ done }

theorem step_after : (r.after done).step separator c = (r.step separator c).after done := by
  obtain ⟨place, records, fields, chars⟩ := r
  unfold Reading.step Reading.unquoted
  cases place <;> dsimp only [Reading.after] <;> repeat' split
  all_goals rfl

theorem foldl_step_after : cs.foldl (Reading.step separator) (r.after done) =
    (cs.foldl (Reading.step separator) r).after done := by
  induction cs generalizing r with
  | nil => rfl
  | cons c cs ih => rw [List.foldl_cons, step_after, ih, List.foldl_cons]

theorem finish_after : (r.after done).finish = done.reverse ++ r.finish := by
  unfold Reading.finish
  cases hplace : r.place <;> simp [Reading.after, hplace, Reading.endRecord, Reading.endField]

/-- A character is passed over before a record, changes the place, ends a field or a record, or is
taken. -/
theorem step_cases (separator : Char) (r : Reading) (c : Char) :
    (isBreak c = true ∧ r.place = .record ∧ r.step separator c = r) ∨
      (∃ place, place ≠ .record ∧ r.step separator c = { r with place }) ∨
      r.step separator c = r.endField ∨
      (isBreak c = true ∧ r.step separator c = r.endRecord) ∨
      ∃ place, place ≠ .record ∧ r.step separator c = r.take place c := by
  have hunquoted : r.unquoted separator c = r.endField ∨
      (isBreak c = true ∧ r.unquoted separator c = r.endRecord) ∨
      ∃ place, place ≠ .record ∧ r.unquoted separator c = r.take place c := by
    unfold Reading.unquoted
    split
    · exact .inl rfl
    · split
      · next hbreak => exact .inr (.inl ⟨hbreak, rfl⟩)
      · exact .inr (.inr ⟨.plain, by decide, rfl⟩)
  unfold Reading.step
  cases hplace : r.place with
  | record =>
    dsimp only
    split
    · next hbreak => exact .inl ⟨hbreak, rfl, rfl⟩
    · split
      · exact .inr (.inl ⟨.quoted, by decide, rfl⟩)
      · exact .inr (.inr hunquoted)
  | field =>
    dsimp only
    split
    · exact .inr (.inl ⟨.quoted, by decide, rfl⟩)
    · exact .inr (.inr hunquoted)
  | plain => exact .inr (.inr hunquoted)
  | quoted =>
    dsimp only
    split
    · exact .inr (.inl ⟨.quote, by decide, rfl⟩)
    · exact .inr (.inr (.inr (.inr ⟨.quoted, by decide, rfl⟩)))
  | quote =>
    dsimp only
    split
    · exact .inr (.inr (.inr (.inr ⟨.quoted, by decide, rfl⟩)))
    · exact .inr (.inr hunquoted)

/-- Outside of quotes, a line break ends the record that has begun. -/
theorem step_of_isBreak (hseparator : isBreak separator = false) (hbreak : isBreak c = true)
    (hplace : r.place ≠ .record) :
    r.step separator c = r.endRecord ∨ r.step separator c = r.take .quoted c := by
  have hne : (c == separator) = false := by
    rw [beq_eq_false_iff_ne]
    rintro rfl
    rw [hbreak] at hseparator
    cases hseparator
  have hquote : (c == '"') = false := by
    rw [beq_eq_false_iff_ne]
    rintro rfl
    cases hbreak
  unfold Reading.step Reading.unquoted
  rw [hne, hquote, hbreak]
  cases hat : r.place with
  | record => exact absurd hat hplace
  | field | plain | quote => exact .inl rfl
  | quoted => exact .inr rfl

theorem Reading.settled_of_place_ne (h : r.place ≠ .record) : r.Settled :=
  fun hrecord => absurd hrecord h

theorem Reading.Settled.step (h : r.Settled) : (r.step separator c).Settled := by
  rcases step_cases separator r c with ⟨-, -, heq⟩ | ⟨place, hplace, heq⟩ | heq | ⟨-, heq⟩ |
    ⟨place, hplace, heq⟩ <;> rw [heq]
  · exact h
  · exact settled_of_place_ne hplace
  · rintro ⟨⟩
  · exact fun _ => ⟨rfl, rfl⟩
  · exact settled_of_place_ne hplace

theorem Reading.Holds.endField (h : r.Holds c) : r.endField.Holds c := by
  rcases h with h | ⟨field, hfield, h⟩ | h
  · refine .inr (.inl ⟨_, List.mem_cons_self, ?_⟩)
    rwa [String.toList_ofList, List.mem_reverse]
  · exact .inr (.inl ⟨field, List.mem_cons_of_mem _ hfield, h⟩)
  · exact .inr (.inr h)

theorem Reading.Holds.endRecord (h : r.Holds c) :
    ∃ record ∈ r.endRecord.records, ∃ field ∈ record, c ∈ field.toList := by
  rcases h.endField with h | ⟨field, hfield, h⟩ | ⟨record, hrecord, h⟩
  · cases h
  · exact ⟨_, List.mem_cons_self, field, List.mem_reverse.mpr hfield, h⟩
  · exact ⟨record, List.mem_cons_of_mem _ hrecord, h⟩

/-- What is held stays. -/
theorem Reading.Holds.step {d : Char} (h : r.Holds d) : (r.step separator c).Holds d := by
  rcases step_cases separator r c with ⟨-, -, heq⟩ | ⟨place, -, heq⟩ | heq | ⟨-, heq⟩ |
    ⟨place, -, heq⟩ <;> rw [heq]
  · exact h
  · exact h
  · exact h.endField
  · exact .inr (.inr h.endRecord)
  · exact h.imp (List.mem_cons_of_mem c) id

/-- What is held is in a field of a record at the end. -/
theorem Reading.Holds.finish (h : r.Holds c) (hsettled : r.Settled) :
    ∃ record ∈ r.finish, ∃ field ∈ record, c ∈ field.toList := by
  have hend : ∃ record ∈ r.endRecord.records.reverse, ∃ field ∈ record, c ∈ field.toList := by
    obtain ⟨record, hrecord, h⟩ := h.endRecord
    exact ⟨record, List.mem_reverse.mpr hrecord, h⟩
  unfold Reading.finish
  cases hplace : r.place with
  | record =>
    obtain ⟨hfields, hchars⟩ := hsettled hplace
    rcases h with h | ⟨field, hfield, -⟩ | ⟨record, hrecord, h⟩
    · rw [hchars] at h
      cases h
    · rw [hfields] at hfield
      cases hfield
    · exact ⟨record, List.mem_reverse.mpr hrecord, h⟩
  | field | plain | quoted | quote => exact hend

theorem Reading.Holds.foldl (h : r.Holds c) (hsettled : r.Settled) :
    ∃ record ∈ (cs.foldl (Reading.step separator) r).finish, ∃ field ∈ record,
      c ∈ field.toList := by
  induction cs generalizing r with
  | nil => exact h.finish hsettled
  | cons d cs ih => exact ih h.step hsettled.step

/-! ## Line by line -/

theorem step_of_not_isBreak (hc : isBreak c = false) :
    (r.step separator c).records = r.records ∧ (r.step separator c).place ≠ .record := by
  rcases step_cases separator r c with ⟨hbreak, -⟩ | ⟨place, hplace, heq⟩ | heq | ⟨hbreak, -⟩ |
    ⟨place, hplace, heq⟩
  · rw [hc] at hbreak
    cases hbreak
  · exact heq ▸ ⟨rfl, hplace⟩
  · exact heq ▸ ⟨rfl, fun h => by cases h⟩
  · rw [hc] at hbreak
    cases hbreak
  · exact heq ▸ ⟨rfl, hplace⟩

/-- A line ends no record, but begins one. -/
theorem foldl_step_line (hline : ∀ c ∈ line, isBreak c = false)
    (hbegun : line ≠ [] ∨ r.place ≠ .record) :
    (line.foldl (Reading.step separator) r).records = r.records ∧
      (line.foldl (Reading.step separator) r).place ≠ .record := by
  induction line generalizing r with
  | nil => exact ⟨rfl, hbegun.resolve_left fun h => h rfl⟩
  | cons c line ih =>
    obtain ⟨hc, hline⟩ := List.forall_mem_cons.mp hline
    obtain ⟨hrecords, hplace⟩ := @step_of_not_isBreak separator r c hc
    obtain ⟨hrecords', hplace'⟩ := ih hline (.inr hplace)
    exact ⟨hrecords'.trans hrecords, hplace'⟩

theorem finish_of_place_ne (hplace : r.place ≠ .record) :
    r.finish = r.endRecord.records.reverse := by
  unfold Reading.finish
  cases hat : r.place with
  | record => exact absurd hat hplace
  | field | plain | quoted | quote => rfl

/-- The record of a line that is not empty. -/
def recordOf (separator : Char) (line : List Char) : List String :=
  (line.foldl (Reading.step separator) {}).endField.fields.reverse

theorem endRecord_line (hline : ∀ c ∈ line, isBreak c = false) (hne : line ≠ []) :
    (line.foldl (Reading.step separator) {}).endRecord =
      ({} : Reading).after [recordOf separator line] := by
  obtain ⟨hrecords, -⟩ := @foldl_step_line separator {} line hline (.inl hne)
  unfold Reading.endRecord recordOf Reading.after
  dsimp only
  rw [Reading.endField]
  dsimp only
  rw [hrecords]
  rfl

/-- A line is a record, unless it is empty. -/
theorem read_line (hline : ∀ c ∈ line, isBreak c = false) :
    read separator line = if line.isEmpty then [] else [recordOf separator line] := by
  cases line with
  | nil => rfl
  | cons c line =>
    have hne : c :: line ≠ [] := List.cons_ne_nil _ _
    obtain ⟨-, hplace⟩ := @foldl_step_line separator {} (c :: line) hline (.inl hne)
    rw [read, finish_of_place_ne hplace, endRecord_line hline hne]
    rfl

/-- Before a record, a break between lines is passed over. -/
theorem foldl_step_ending (hending : ending ∈ lineBreaks) (hplace : r.place = .record) :
    ending.foldl (Reading.step separator) r = r := by
  have hstep : ∀ c, isBreak c = true → r.step separator c = r := by
    intro c hc
    rw [Reading.step, hplace]
    exact if_pos hc
  simp only [lineBreaks, List.mem_cons, List.not_mem_nil, or_false] at hending
  rcases hending with rfl | rfl | rfl <;> simp [hstep, isBreak]

/-- A line that ends is read apart from the lines after it. -/
theorem read_append_line (hseparator : isBreak separator = false)
    (hline : ∀ c ∈ line, isBreak c = false) (hending : ending ∈ lineBreaks)
    (hfree : BreakFree (read separator (line ++ (ending ++ rest)))) :
    read separator (line ++ (ending ++ rest)) = read separator line ++ read separator rest := by
  by_cases hempty : line = []
  · subst hempty
    rw [List.nil_append, read, List.foldl_append, foldl_step_ending hending rfl]
    rfl
  obtain ⟨-, hplace⟩ := @foldl_step_line separator {} line hline (.inl hempty)
  obtain ⟨b, more, rfl, hbreak, hmore⟩ : ∃ b more, ending = b :: more ∧ isBreak b = true ∧
      ∀ r : Reading, r.place = .record → more.foldl (Reading.step separator) r = r := by
    have hbreak : isBreak '\r' = true ∧ isBreak '\n' = true := by decide
    simp only [lineBreaks, List.mem_cons, List.not_mem_nil, or_false] at hending
    rcases hending with rfl | rfl | rfl
    · exact ⟨_, _, rfl, hbreak.1, fun r => foldl_step_ending (by simp [lineBreaks])⟩
    · exact ⟨_, _, rfl, hbreak.2, fun r _ => rfl⟩
    · exact ⟨_, _, rfl, hbreak.1, fun r _ => rfl⟩
  have hread : read separator (line ++ (b :: more ++ rest)) = (rest.foldl (Reading.step separator)
      (more.foldl (Reading.step separator)
        ((line.foldl (Reading.step separator) {}).step separator b))).finish := by
    rw [read, List.foldl_append, List.foldl_append, List.foldl_cons]
  rcases step_of_isBreak hseparator hbreak hplace with hstep | hstep
  · have hnot : line.isEmpty = false := by simpa using hempty
    rw [hread, hstep, endRecord_line hline hempty, hmore _ rfl, foldl_step_after, finish_after,
      read_line hline, hnot]
    rfl
  · have hholds : ((line.foldl (Reading.step separator) {}).take .quoted b).Holds b :=
      .inl List.mem_cons_self
    rw [hread, hstep, ← List.foldl_append] at hfree
    obtain ⟨record, hrecord, field, hfield, hmem⟩ :=
      hholds.foldl (Reading.settled_of_place_ne fun h => by cases h)
    rw [hfree record hrecord field hfield b hmem] at hbreak
    cases hbreak

/-- A text without line breaks in its fields is read line by line. -/
theorem read_eq_flatMap_lines (hseparator : isBreak separator = false)
    (hfree : BreakFree (read separator cs)) :
    read separator cs = (lines cs).flatMap (read separator) := by
  induction cs using lines_induction with
  | last line hline hlines => rw [hlines, List.flatMap_singleton]
  | ended line ending rest hline hending hlines ih =>
    have happend := read_append_line hseparator hline hending hfree
    have hrest : BreakFree (read separator rest) := fun record hrecord =>
      hfree record (happend ▸ List.mem_append_right _ hrecord)
    rw [hlines, List.flatMap_cons, happend, ih hrest]

/-! ## Numbered records -/

variable {α : Type} {ls passed coming : List (List Char)}

/-- How many lines before one are empty. -/
def emptyBefore (ls : List (List Char)) (number : Nat) : Nat :=
  (ls.take (number - 1)).countP List.isEmpty

/-- Things that are numbered from some number on. -/
def numberedFrom (first : Nat) : List α → List (Nat × α)
  | [] => []
  | a :: l => (first, a) :: numberedFrom (first + 1) l

/-- The records of numbered lines, each with the number of its line. -/
def recordsOf (separator : Char) (numbered : List (Nat × List Char)) : List (Nat × List String) :=
  numbered.flatMap fun line => (read separator line.2).map (line.1, ·)

/-- What is tagged stands in a line, and its tag is the number of that line less the number of empty
ones before it. -/
def TaggedIn (ls : List (List Char)) (tagged inLine : Nat × α) : Prop :=
  tagged.2 = inLine.2 ∧ tagged.1 + emptyBefore ls inLine.1 = inLine.1

/-- The records of lines are numbered as if the empty ones among them were not there. -/
theorem forall₂_taggedIn {first : Nat} (hcoming : ∀ line ∈ coming, ∀ c ∈ line, isBreak c = false)
    (hfirst : first + passed.countP List.isEmpty = passed.length + 1) :
    List.Forall₂ (TaggedIn (passed ++ coming))
      (numberedFrom first (coming.flatMap (read separator)))
      (recordsOf separator (numberedFrom (passed.length + 1) coming)) := by
  -- An empty line is one more that is passed, but the next record is numbered as if it were not.
  induction coming generalizing passed first with
  | nil => exact .nil
  | cons line coming ih =>
    obtain ⟨hline, hcoming⟩ := List.forall_mem_cons.mp hcoming
    have hrest := fun first => @ih (passed ++ [line]) first hcoming
    rw [List.append_assoc, List.singleton_append, List.length_append, List.countP_append,
      List.length_singleton, List.countP_singleton] at hrest
    rw [recordsOf, numberedFrom, List.flatMap_cons, List.flatMap_cons, read_line hline]
    cases hempty : line.isEmpty with
    | true =>
      rw [hempty] at hrest
      exact hrest first (by simp; omega)
    | false =>
      rw [hempty] at hrest
      have hbefore : emptyBefore (passed ++ line :: coming) (passed.length + 1) =
          passed.countP List.isEmpty := by
        rw [emptyBefore, Nat.add_sub_cancel, List.take_left']
        rfl
      exact .cons ⟨rfl, hbefore ▸ hfirst⟩ (hrest (first + 1) (by simp; omega))

/-- A tag is the number of the line just if no line before it is empty. -/
theorem TaggedIn.eq_iff {tagged inLine : Nat × α} (h : TaggedIn ls tagged inLine) :
    tagged = inLine ↔ emptyBefore ls inLine.1 = 0 := by
  obtain ⟨hsame, hnumber⟩ := h
  rw [Prod.ext_iff]
  constructor
  · rintro ⟨heq, -⟩
    omega
  · exact fun hzero => ⟨by omega, hsame⟩

/-- No line break is taken for a separator. -/
theorem isBreak_separatorOf (cs : List Char) : isBreak (separatorOf cs) = false := by
  refine List.foldlRecOn _ _ (motive := fun c => isBreak c = false) (by decide)
    fun best hbest c hc => ?_
  have hcandidates : ∀ c ∈ [',', '\t', ';', '|'], isBreak c = false := by simp [isBreak]
  split
  · exact hcandidates c hc
  · exact hbest

end Recount.Csv

/-! ## Rows of a file -/

namespace Recount.File

open Csv (TaggedIn emptyBefore)

variable {content : Content} {filename : String} {fields : List FieldMapping} {table : Table}
  {items : Items} {ls : List (List Char)}

/-- The characters of a file, without the mark that text may begin with. -/
def Content.characters (content : Content) : List Char :=
  match Utf8.decode content.bytes with
  | .error _ => []
  | .ok text => text.toList.dropWhile (· == '\ufeff')

/-- The lines of a file. -/
def Content.lines (content : Content) : List (List Char) := Csv.lines content.characters

/-- The character between the fields of a file. -/
def Content.separator (content : Content) : Char := Csv.separatorOf content.characters

/-- The records of a file of separated values. -/
def Content.csvRecords (content : Content) : List (List String) :=
  Csv.read content.separator content.characters

/-- No field of a file of separated values holds a line break. -/
def Content.BreakFree (content : Content) : Prop := Csv.BreakFree content.csvRecords

instance (content : Content) : Decidable content.BreakFree :=
  inferInstanceAs (Decidable (Csv.BreakFree content.csvRecords))

/-- The rows of numbered records, the first of which are the headers; a record of empty cells is
left out. -/
def rowsUnder : List (Nat × List String) → List (Nat × Row)
  | [] => []
  | (_, headers) :: records => records.filterMap fun (number, record) =>
    let cells := record.map Text.trim
    if cells.all String.isEmpty then none
    else some (number, rowOf (headers.map Text.trim) cells)

/-- The rows of a file, each with the number of its line. -/
def Content.rowsByLine (content : Content) : List (Nat × Row) :=
  rowsUnder (Csv.recordsOf content.separator (Csv.numberedFrom 1 content.lines))

/-- The errors of numbered rows. -/
def errorsOf (fields : List FieldMapping) (rows : List (Nat × Row)) : List RowError :=
  rows.filterMap fun (number, row) =>
    match itemOfRow fields row with
    | .ok _ => none
    | .error message => some ⟨number, message⟩

theorem numbered_eq_numberedFrom {α : Type} (l : List α) : numbered l = Csv.numberedFrom 2 l := by
  have hfrom : ∀ first, ((l.zipIdx first).map fun (a, index) => (index + 2, a)) =
      Csv.numberedFrom (first + 2) l := by
    induction l with
    | nil => exact fun first => rfl
    | cons a l ih =>
      intro first
      rw [List.zipIdx_cons, List.map_cons, ih (first + 1), Csv.numberedFrom, Nat.add_right_comm]
  exact hfrom 0

theorem map_numberedFrom {α β : Type} {f : α → β} {first : Nat} {l : List α} :
    Csv.numberedFrom first (l.map f) = (Csv.numberedFrom first l).map fun (n, a) => (n, f a) := by
  induction l generalizing first with
  | nil => rfl
  | cons a l ih => rw [List.map_cons, Csv.numberedFrom, ih, Csv.numberedFrom, List.map_cons]

/-- The rows of a table of separated values are numbered as its records. -/
theorem rows_of_ofCsv (h : ofCsv content.bytes = .ok table) :
    table.rows = rowsUnder (Csv.numberedFrom 1 content.csvRecords) := by
  unfold ofCsv at h
  split at h
  · cases h
  · next text hdecode =>
    have hcharacters : content.characters = text.toList.dropWhile (· == '\ufeff') := by
      rw [Content.characters, hdecode]
    rw [← hcharacters] at h
    cases h
    change rowsOf ((content.csvRecords.map (·.map Text.trim)).head?.getD [])
      ((content.csvRecords.map (·.map Text.trim)).drop 1) = _
    cases content.csvRecords with
    | nil => rfl
    | cons headers records =>
      change rowsOf (headers.map Text.trim) (records.map (·.map Text.trim)) = _
      rw [rowsOf, numbered_eq_numberedFrom, map_numberedFrom, List.filterMap_map]
      rfl

theorem rowErrors_of_readItems (h : readItems content filename fields = .ok items) :
    ∃ table, read content filename = .ok table ∧ items.kind = table.kind ∧
      items.rowErrors = errorsOf fields table.rows := by
  unfold readItems at h
  obtain ⟨table, htable, h⟩ := bind_eq_ok_iff.mp h
  dsimp only at h
  split at h
  · cases h
  · cases h
    refine ⟨table, htable, rfl, ?_⟩
    dsimp only
    rw [List.filterMap_map]
    rfl

/-- Records and their rows are numbered alike. -/
theorem forall₂_rowsUnder {tagged inLine : List (Nat × List String)}
    (h : List.Forall₂ (TaggedIn ls) tagged inLine) :
    List.Forall₂ (TaggedIn ls) (rowsUnder tagged) (rowsUnder inLine) := by
  cases h with
  | nil => exact .nil
  | @cons a b tagged inLine hab h =>
    obtain ⟨n, headers⟩ := a
    obtain ⟨m, headers'⟩ := b
    obtain rfl : headers = headers' := hab.1
    refine List.rel_filterMap (fun record record' hrecord => ?_) h
    obtain ⟨number, record⟩ := record
    obtain ⟨number', record'⟩ := record'
    obtain ⟨rfl, hnumber⟩ := hrecord
    dsimp only
    split
    · exact .none
    · exact .some ⟨rfl, hnumber⟩

/-- Rows and their errors are numbered alike. -/
theorem forall₂_errorsOf {tagged inLine : List (Nat × Row)}
    (h : List.Forall₂ (TaggedIn ls) tagged inLine) :
    List.Forall₂ (fun e e' : RowError => TaggedIn ls (e.row, e.message) (e'.row, e'.message))
      (errorsOf fields tagged) (errorsOf fields inLine) := by
  refine List.rel_filterMap (fun row row' hrow => ?_) h
  obtain ⟨number, row⟩ := row
  obtain ⟨number', row'⟩ := row'
  obtain ⟨rfl, hnumber⟩ := hrow
  dsimp only
  split
  · exact .none
  · exact .some ⟨rfl, hnumber⟩

/-- The rows of a table are those of the lines of its file. -/
theorem forall₂_rowsByLine (hcsv : ofCsv content.bytes = .ok table) (hfree : content.BreakFree) :
    List.Forall₂ (TaggedIn content.lines) table.rows content.rowsByLine := by
  rw [rows_of_ofCsv hcsv]
  refine forall₂_rowsUnder ?_
  have hlines := Csv.read_eq_flatMap_lines (Csv.isBreak_separatorOf content.characters) hfree
  change content.csvRecords = content.lines.flatMap (Csv.read content.separator) at hlines
  rw [hlines]
  exact @Csv.forall₂_taggedIn content.separator [] content.lines 1
    (fun line => Csv.isBreak_of_mem_lines) rfl

/-- Of a file of separated values without line breaks in its fields, each row is tagged with the
number of its line less the number of empty lines before that one. So the rows are tagged with the
numbers of their lines just if no line before one of them is empty, and likewise the errors. -/
theorem tagged_by_line_iff (hitems : readItems content filename fields = .ok items)
    (hkind : items.kind = .csv) (hfree : content.BreakFree) :
    ∃ table, read content filename = .ok table ∧ items.rowErrors = errorsOf fields table.rows ∧
      List.Forall₂ (TaggedIn content.lines) table.rows content.rowsByLine ∧
      (table.rows = content.rowsByLine ↔
        ∀ row ∈ content.rowsByLine, emptyBefore content.lines row.1 = 0) ∧
      (items.rowErrors = errorsOf fields content.rowsByLine ↔
        ∀ e ∈ errorsOf fields content.rowsByLine, emptyBefore content.lines e.row = 0) := by
  obtain ⟨table, hread, hsame, herrors⟩ := rowErrors_of_readItems hitems
  have hcsv := ofKind_of_read hread
  rw [← hsame, hkind] at hcsv
  have hrows := forall₂_rowsByLine hcsv hfree
  refine ⟨table, hread, herrors, hrows, eq_iff_of_forall₂ hrows fun _ _ => TaggedIn.eq_iff, ?_⟩
  rw [herrors]
  refine eq_iff_of_forall₂ (forall₂_errorsOf hrows) fun e e' h => ?_
  rw [← h.eq_iff, Prod.mk.injEq, RowError.mk.injEq]

/-- A file with a mark at its beginning, a line of empty cells and, between its last two rows, an
empty line. -/
def spacedFile : Content :=
  .ofBytes "\ufeffitemCode,itemName\r\n , \r\n,Banana\r\n\r\n,Bread\n".toUTF8

/-- Its items: both of its rows lack a code, the first on line three and the other on line five. -/
def spacedItems : Items where
  kind := .csv
  hash := spacedFile.hash
  rowsRead := 2
  records := []
  rowErrors := [⟨3, "Missing item code"⟩, ⟨4, "Missing item code"⟩]
  warnings := []

theorem breakFree_spacedFile : spacedFile.BreakFree := by
  have hrecords : spacedFile.csvRecords =
      [["itemCode", "itemName"], [" ", " "], ["", "Banana"], ["", "Bread"]] := rfl
  rw [Content.BreakFree, hrecords]
  simp [Csv.BreakFree, Csv.isBreak]

theorem errorsOf_spacedFile : errorsOf [] spacedFile.rowsByLine =
    [⟨3, "Missing item code"⟩, ⟨5, "Missing item code"⟩] := rfl

theorem tagged_by_line_iff_spaced :
    readItems spacedFile "items.csv" [] = .ok spacedItems ∧ spacedItems.kind = .csv ∧
      spacedFile.BreakFree ∧
      errorsOf [] spacedFile.rowsByLine = [⟨3, "Missing item code"⟩, ⟨5, "Missing item code"⟩] ∧
      ∃ table, read spacedFile "items.csv" = .ok table ∧
        List.Forall₂ (TaggedIn spacedFile.lines) table.rows spacedFile.rowsByLine := by
  have hitems : readItems spacedFile "items.csv" [] = .ok spacedItems := rfl
  obtain ⟨table, hread, -, hrows, -⟩ := tagged_by_line_iff hitems rfl breakFree_spacedFile
  exact ⟨hitems, rfl, breakFree_spacedFile, errorsOf_spacedFile, table, hread, hrows⟩

/-- An error is not always tagged with the number of its line. -/
theorem not_tagged_by_line : ¬ ∀ (content : Content) (filename : String)
    (fields : List FieldMapping) (items : Items), readItems content filename fields = .ok items →
      items.kind = .csv → content.BreakFree →
      items.rowErrors = errorsOf fields content.rowsByLine := by
  intro h
  have hsame := h spacedFile "items.csv" [] spacedItems rfl rfl breakFree_spacedFile
  rw [errorsOf_spacedFile] at hsame
  cases hsame

end Recount.File
