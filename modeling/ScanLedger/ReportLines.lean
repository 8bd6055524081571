/-
# The lines of the Markdown report

`build_markdown_export` in its full mode writes three kinds of tables, a row for
each module run, each finding and each denied ledger entry, and fills rows and
lines with stored texts as they are. A text with a line break or a pipe takes a
row apart, and a text of several lines elsewhere can begin a heading or a row of
its own. The report is not forged exactly when no text in a table has either,
and no other text begins a line of its own so (`unforged_iff`).

Key definitions: `tableRows`, `Unforged`, `CellText`, `StartsNothing`, `InertTexts`.
Key theorems: `tables_markdownLines`, `keeps_markdownLines`, `unforged_iff`.
-/
import ScanLedger.Completion
import ScanLedger.Lib.Lines
import ScanLedger.Printing
import ScanLedger.Reports

namespace ScanLedger

open Lines

/-! ### What the report should hold -/

/-- A row of a table, from its cells. -/
def tableRow (cells : List String) : String := "| " ++ " | ".intercalate cells ++ " |"

def runCells (run : ModuleRunRow) : List String :=
  [run.module, run.status.text, toString run.findingCount, run.safeErrorMessage.getD ""]

def findingCells (row : FindingRow) : List String :=
  [row.finding.host, (row.finding.port.map toString).getD "", row.finding.title,
    row.finding.module, iso row.finding.observedAt]

def deniedCells (row : ScanLedgerRow) : List String := [row.entry.destination, row.entry.reason]

def moduleTable (runs : List ModuleRunRow) : List (List String) :=
  ["Module", "Status", "Findings", "Reason"] :: ["---", "---", "---", "---"] :: runs.map runCells

def findingTable (findings : List FindingRow) (category : FindingCategory) : List (List String) :=
  match findings.filter (·.finding.category == category) with
  | [] => []
  | row :: rows => ["Host", "Port", "Finding", "Module", "Observed"] ::
      ["---", "---", "---", "---", "---"] :: (row :: rows).map findingCells

def deniedTable (ledger : List ScanLedgerRow) : List (List String) :=
  match ledger.filter (·.entry.decision == .denied) with
  | [] => []
  | row :: rows => ["Destination", "Reason"] :: ["---", "---"] :: (row :: rows).map deniedCells

/-- The rows of all tables, in their order: each table has its header, a line
of dashes, and a row for each module run, finding or denied ledger entry. -/
def tableRows (inputs : ExportInputs) : List (List String) :=
  moduleTable inputs.runs ++
  [.liveHost, .portService, .enumeration, .vulnerability].flatMap (findingTable inputs.findings) ++
  deniedTable inputs.ledger

/-- The lines of the full report. -/
def reportLines (now : ℚ) (inputs : ExportInputs) : List (List Char) :=
  lines (buildMarkdownExport now inputs true).toList

/-- The lines that begin as a table's row are the rows of the tables, with as
many cells as they were given, and the headings are the eleven of the report. -/
structure Unforged (now : ℚ) (inputs : ExportInputs) : Prop where
  rows : (reportLines now inputs).filter (marked '|') =
    (tableRows inputs).map fun cells => (tableRow cells).toList
  cells : ∀ cells ∈ tableRows inputs, (tableRow cells).toList.count '|' = cells.length + 1
  headings : (reportLines now inputs).countP (marked '#') = 11

/-! ### Texts that do no harm -/

/-- A text for a cell: on one line, and without a pipe. -/
def CellText (text : String) : Prop := '\n' ∉ text.toList ∧ '|' ∉ text.toList

/-- No line of the text but its first begins as a heading or a row. -/
def StartsNothing (text : String) : Prop := Tame ['|', '#'] false text.toList

instance (text : String) : Decidable (CellText text) := inferInstanceAs (Decidable (_ ∧ _))

instance (text : String) : Decidable (StartsNothing text) :=
  inferInstanceAs (Decidable (Tame _ _ _))

/-- The texts that stand outside the tables. -/
def freeTexts (scan : ScanRow) (scope : ScopeProfileRow) : List String :=
  [scan.targetNormalized, scan.targetInput, scope.name, scan.intensityProfile,
    scan.attestationText, scan.attestationVersion] ++ scope.entries ++ scan.note.toList

structure InertTexts (inputs : ExportInputs) : Prop where
  runs : ∀ run ∈ inputs.runs, CellText run.module ∧ CellText (run.safeErrorMessage.getD "")
  findings : ∀ row ∈ inputs.findings,
    CellText row.finding.host ∧ CellText row.finding.title ∧ CellText row.finding.module
  denied : ∀ row ∈ inputs.ledger, row.entry.decision = .denied →
    CellText row.entry.destination ∧ CellText row.entry.reason
  free : ∀ text ∈ freeTexts inputs.scan inputs.scope, StartsNothing text

/-! ### Numbers and times -/

theorem cellText_append {s t : String} : CellText (s ++ t) ↔ CellText s ∧ CellText t := by
  unfold CellText
  rw [String.toList_append, List.mem_append, List.mem_append]
  tauto

theorem cellText_intCast (n : ℤ) : CellText (toString n) := by
  have hdigit : ∀ c ∈ (toString n).toList, c ≠ '\n' ∧ c ≠ '|' := by
    intro c hc
    have hhex := mem_toString_int hc
    constructor <;> rintro rfl <;> revert hhex <;> decide
  exact ⟨fun h => (hdigit _ h).1 rfl, fun h => (hdigit _ h).2 rfl⟩

theorem cellText_natCast (n : ℕ) : CellText (toString n) := cellText_intCast n

theorem cellText_padded (digits : ℕ) (n : ℤ) : CellText (padded digits n) := by
  have hzeros : ∀ k, CellText (String.ofList (List.replicate k '0')) := by
    intro k
    unfold CellText
    rw [String.toList_ofList]
    constructor <;> exact fun h => absurd (List.eq_of_mem_replicate h) (by decide)
  unfold padded
  exact cellText_append.mpr ⟨hzeros _, cellText_intCast n⟩

theorem cellText_iso (moment : ℚ) : CellText (iso moment) := by
  have hconst : CellText "-" ∧ CellText "T" ∧ CellText ":" ∧ CellText "." ∧ CellText "" ∧
      CellText "+00:00" := by decide
  obtain ⟨hdash, ht, hcolon, hdot, hempty, hzone⟩ := hconst
  unfold iso
  dsimp only
  split_ifs <;> simp only [cellText_append, cellText_padded, hdash, ht, hcolon, hdot, hempty,
    hzone, and_self]

theorem cellText_port (port : Option ℤ) : CellText ((port.map toString).getD "") := by
  cases port with
  | none => decide
  | some port => exact cellText_intCast port

theorem cellText_moduleStatus (status : ModuleStatus) : CellText status.text := by
  cases status <;> decide

/-! ### The rows -/

theorem tableRow_toList (cells : List String) :
    (tableRow cells).toList = '|' :: ' ' :: (" | ".intercalate cells).toList ++ [' ', '|'] := by
  unfold tableRow
  rw [String.toList_append, String.toList_append]
  rfl

/-- The pipes of a row, and those in its cells. -/
theorem count_tableRow : ∀ {cells : List String}, cells ≠ [] →
    (tableRow cells).toList.count '|' =
      cells.length + 1 + (cells.map fun cell => cell.toList.count '|').sum
  | [], h => absurd rfl h
  | [cell], _ => by
    rw [tableRow_toList]
    simp
    omega
  | cell :: next :: cells, _ => by
    have ih := count_tableRow (List.cons_ne_nil next cells)
    rw [tableRow_toList] at ih ⊢
    rw [String.intercalate_cons_cons]
    simp at ih ⊢
    omega

/-- A row has the cells it was given, when they have no pipe. -/
theorem count_tableRow_eq {cells : List String} (h : cells ≠ []) :
    (tableRow cells).toList.count '|' = cells.length + 1 ↔ ∀ cell ∈ cells, '|' ∉ cell.toList := by
  rw [count_tableRow h, Nat.add_eq_left, List.sum_eq_zero_iff]
  simp [List.count_eq_zero]

/-- A row is on one line, when its cells are. -/
theorem newline_tableRow : ∀ {cells : List String},
    '\n' ∉ (tableRow cells).toList ↔ ∀ cell ∈ cells, '\n' ∉ cell.toList
  | [] => by
    rw [tableRow_toList]
    simp
  | [cell] => by
    rw [tableRow_toList]
    simp
  | cell :: next :: cells => by
    have ih : '\n' ∉ (tableRow (next :: cells)).toList ↔
        ∀ cell ∈ next :: cells, '\n' ∉ cell.toList := newline_tableRow
    rw [tableRow_toList] at ih ⊢
    rw [String.intercalate_cons_cons]
    simp at ih ⊢
    tauto

theorem marked_tableRow (cells : List String) : marked '|' (tableRow cells).toList = true := by
  rw [tableRow_toList]
  rfl

/-! ### The lines around stored texts -/

/-- How lines begin. -/
def heads (ls : List String) : List (Option Char) := ls.map fun line => line.toList.head?

/-- A line that begins so, and is tame when the stored texts in it are. -/
structure Framed (c : Char) (texts : List String) (line : String) : Prop where
  begins : line.toList.head? = some c
  tame : StartsNothing line ↔ ∀ text ∈ texts, StartsNothing text

/-- The beginning of such a line; what follows it does not begin another. -/
structure Opened (c : Char) (texts : List String) (line : String) : Prop
    extends Framed c texts line where
  goesOn : ends false line.toList = false

section

variable {c d : Char} {cs : List Char} {texts : List String} {line text : String}

theorem opened_literal (h : '\n' ∉ c :: cs) : Opened c [] (String.ofList (c :: cs)) := by
  have hlist : (String.ofList (c :: cs)).toList = c :: cs := String.toList_ofList
  refine ⟨⟨?_, ?_⟩, ?_⟩
  · rw [hlist]
    rfl
  · unfold StartsNothing
    rw [hlist]
    exact iff_of_true (tame_of_notMem h) nofun
  · rw [hlist]
    exact ends_of_notMem h

/-- A text of the program's own, on one line. -/
theorem Opened.own (h : Opened c texts line) (ht : '\n' ∉ text.toList) :
    Opened c texts (line ++ text) := by
  have htame : Tame ['|', '#'] false text.toList := tame_of_notMem ht
  refine ⟨⟨?_, ?_⟩, ?_⟩
  · rw [String.toList_append, List.head?_append, h.begins]
    rfl
  · rw [← h.tame]
    unfold StartsNothing
    rw [String.toList_append, tame_append, h.goesOn]
    exact and_iff_left htame
  · rw [String.toList_append, ends_append, h.goesOn]
    exact ends_of_notMem ht

/-- A stored text at the end of the line. -/
theorem Opened.last (h : Opened c texts line) : Framed c (texts ++ [text]) (line ++ text) := by
  refine ⟨?_, ?_⟩
  · rw [String.toList_append, List.head?_append, h.begins]
    rfl
  · rw [List.forall_mem_append, ← h.tame]
    unfold StartsNothing
    rw [String.toList_append, tame_append, h.goesOn]
    simp

/-- A stored text, and the program's own after it. -/
theorem Opened.field (h : Opened c texts line) (hd : '\n' ∉ d :: cs ∧ d ∉ ['|', '#']) :
    Opened c (texts ++ [text]) (line ++ text ++ String.ofList (d :: cs)) := by
  have hlast : Framed c (texts ++ [text]) (line ++ text) := h.last
  have hplain : Plain ['|', '#'] (d :: cs) := ⟨List.cons_ne_nil d cs, hd.1, by simpa using hd.2⟩
  refine ⟨⟨?_, ?_⟩, ?_⟩
  · rw [String.toList_append, List.head?_append, hlast.begins]
    rfl
  · rw [← hlast.tame]
    unfold StartsNothing
    rw [String.toList_append (s := line ++ text), tame_append, String.toList_ofList]
    exact and_iff_left hplain.tame
  · rw [String.toList_append, ends_append, String.toList_ofList, ends]
    rw [List.mem_cons, not_or] at hd
    rw [beq_false_of_ne (Ne.symm hd.1.1)]
    exact ends_of_notMem hd.1.2

end

/-- Lines that begin so, and are tame when the stored texts in them are. -/
structure Section (ls : List String) (hs : List (Option Char)) (texts : List String) : Prop where
  heads : heads ls = hs
  tame : (∀ line ∈ ls, StartsNothing line) ↔ ∀ text ∈ texts, StartsNothing text

section

variable {c : Char} {ls ms : List String} {hs is : List (Option Char)} {texts texts' : List String}
  {line : String}

theorem section_nil : Section [] [] [] := ⟨rfl, Iff.rfl⟩

theorem section_cons (hline : Framed c texts line) (h : Section ls hs texts') :
    Section (line :: ls) (some c :: hs) (texts ++ texts') := by
  refine ⟨?_, ?_⟩
  · rw [← h.heads, ScanLedger.heads, List.map_cons, hline.begins]
    rfl
  · rw [List.forall_mem_cons, List.forall_mem_append, hline.tame, h.tame]

theorem section_empty (h : Section ls hs texts) : Section ("" :: ls) (none :: hs) texts := by
  refine ⟨?_, ?_⟩
  · rw [← h.heads, ScanLedger.heads, List.map_cons, String.toList_empty]
    rfl
  · rw [List.forall_mem_cons, h.tame]
    exact and_iff_right (by decide)

theorem section_append (h : Section ls hs texts) (h' : Section ms is texts') :
    Section (ls ++ ms) (hs ++ is) (texts ++ texts') := by
  refine ⟨?_, ?_⟩
  · rw [← h.heads, ← h'.heads]
    exact List.map_append
  · rw [List.forall_mem_append, List.forall_mem_append, h.tame, h'.tame]

theorem Section.of_texts (h : Section ls hs texts)
    (ht : (∀ text ∈ texts, StartsNothing text) ↔ ∀ text ∈ texts', StartsNothing text) :
    Section ls hs texts' :=
  ⟨h.heads, h.tame.trans ht⟩

end

theorem notMem_literal {c : Char} {cs : List Char} (h : c ∉ cs) :
    c ∉ (String.ofList cs).toList := by
  rw [String.toList_ofList]
  exact h

/-- Texts joined by commas are tame when each of them is. -/
theorem startsNothing_join : ∀ texts : List String,
    StartsNothing (", ".intercalate texts) ↔ ∀ text ∈ texts, StartsNothing text
  | [] => iff_of_true (by decide) nofun
  | [text] => by simp
  | text :: next :: texts => by
    have hcomma : Plain ['|', '#'] ", ".toList := by
      refine ⟨by decide, by decide, fun c hc => ?_⟩
      have hhead : ", ".toList.head? = some ',' := by decide
      rw [← Option.some.inj (hhead.symm.trans hc)]
      decide
    rw [List.forall_mem_cons, ← startsNothing_join (next :: texts), String.intercalate_cons_cons]
    unfold StartsNothing
    rw [String.toList_append, String.toList_append, tame_append, tame_append, ends_append]
    have hends : ∀ fresh, ends fresh ", ".toList = false := by decide
    rw [hends, and_assoc]
    exact and_congr_right fun _ => and_iff_right hcomma.tame

/-- The line of the note, where there is one. -/
theorem section_note (note : Option String) :
    ∃ heads, (∀ h ∈ heads, h = some '-') ∧ Section (match note with
      | none | some "" => []
      | some note => ["- **Engagement note:** " ++ note]) heads note.toList := by
  split
  · exact ⟨[], List.forall_mem_nil _, section_nil⟩
  · exact ⟨[], List.forall_mem_nil _,
      section_nil.of_texts (iff_of_true (List.forall_mem_nil _) (by decide))⟩
  · refine ⟨[some '-'], by decide, ?_⟩
    exact section_cons (opened_literal (by decide)).last section_nil

theorem section_scanLines (scan : ScanRow) (scope : ScopeProfileRow) :
    ∃ note, (∀ h ∈ note, h = some '-') ∧ Section (scanLines scan scope)
      ([some '#', none, some '>', none, some '#', none, some '-', some '-', some '-', some '-',
        some '-', some '-'] ++ note)
      ([scan.targetNormalized, scan.targetInput, scope.name, scan.intensityProfile] ++
        scope.entries ++ scan.note.toList) := by
  have hstatus : '\n' ∉ scan.status.text.toList := by cases scan.status <;> decide
  have htype : '\n' ∉ scan.targetType.text.toList := by cases scan.targetType <;> decide
  have hfinished : '\n' ∉ ((scan.finishedAt.map iso).getD "not finished").toList := by
    cases scan.finishedAt with
    | none => decide
    | some moment => exact (cellText_iso moment).1
  obtain ⟨note, hdash, hnote⟩ := section_note scan.note
  refine ⟨note, hdash, ?_⟩
  unfold scanLines scopeLine
  apply Section.of_texts
  · apply section_append
    · apply section_cons (opened_literal (by decide)).last
      apply section_empty
      apply section_cons ((opened_literal (by decide)).own (notMem_literal (by decide))).toFramed
      apply section_empty
      apply section_cons (opened_literal (by decide)).toFramed
      apply section_empty
      apply section_cons ((opened_literal (by decide)).own hstatus).toFramed
      apply section_cons (((((opened_literal (by decide)).field (by decide)).field
        (by decide)).own htype).own (notMem_literal (by decide))).toFramed
      apply section_cons ((opened_literal (by decide)).field (by decide)).last
      apply section_cons (opened_literal (by decide)).last
      apply section_cons ((opened_literal (by decide)).own (cellText_iso _).1).toFramed
      apply section_cons ((opened_literal (by decide)).own hfinished).toFramed
      exact section_nil
    · exact hnote
  · simp only [List.forall_mem_append, List.forall_mem_cons, startsNothing_join]
    tauto

/-- None of the lines about the scan is a row of a table. -/
theorem notMem_bar {note : List (Option Char)} (hdash : ∀ h ∈ note, h = some '-') :
    some '|' ∉ [some '#', none, some '>', none, some '#', none, some '-', some '-', some '-',
      some '-', some '-', some '-'] ++ note := by
  rw [List.mem_append, not_or]
  exact ⟨by decide, fun h => absurd (hdash _ h) (by decide)⟩

theorem section_authorizationLines (scan : ScanRow) : Section (authorizationLines scan)
    [none, some '#', none, some '>', none, some 'A', none, some '#', none, some '-', some '-',
      some '-'] [scan.attestationText, scan.attestationVersion] := by
  have hiso : '\n' ∉ (iso scan.attestationAt).toList := (cellText_iso _).1
  unfold authorizationLines
  apply Section.of_texts
  · apply section_empty
    apply section_cons (opened_literal (by decide)).toFramed
    apply section_empty
    apply section_cons (opened_literal (by decide)).last
    apply section_empty
    apply section_cons ((((opened_literal (by decide)).own hiso).own
      (notMem_literal (by decide))).field (by decide)).toFramed
    apply section_empty
    apply section_cons (opened_literal (by decide)).toFramed
    apply section_empty
    apply section_cons ((opened_literal (by decide)).own (notMem_literal (by decide))).toFramed
    apply section_cons (opened_literal (by decide)).toFramed
    apply section_cons ((opened_literal (by decide)).own (notMem_literal (by decide))).toFramed
    exact section_nil
  · simp

/-! ### Lines that keep their line -/

/-- The line is one line of the report, or the first of several harmless ones. -/
def KeepsLine (line : String) : Prop := Keeps '|' '#' line.toList

theorem keepsLine_of_oneLine {line : String} (h : '\n' ∉ line.toList) : KeepsLine line := by
  unfold KeepsLine Keeps
  split_ifs
  · exact h
  · exact tame_of_notMem h

section

variable {ls : List String} {hs : List (Option Char)} {texts : List String}

theorem Section.head_mem (h : Section ls hs texts) {line : String} (hline : line ∈ ls) :
    line.toList.head? ∈ hs := by
  rw [← h.heads]
  exact List.mem_map.mpr ⟨line, hline, rfl⟩

theorem Section.unmarked (h : Section ls hs texts) (hno : some '|' ∉ hs) {line : String}
    (hline : line ∈ ls) : marked '|' line.toList = false := by
  have hmem := h.head_mem hline
  unfold marked
  rw [beq_eq_false_iff_ne]
  rintro he
  exact hno (he ▸ hmem)

theorem Section.keeps (h : Section ls hs texts) (hno : some '|' ∉ hs) :
    (∀ line ∈ ls, KeepsLine line) ↔ ∀ text ∈ texts, StartsNothing text := by
  rw [← h.tame]
  refine forall₂_congr fun line hline => ?_
  unfold KeepsLine Keeps
  rw [h.unmarked hno hline, if_neg Bool.false_ne_true]
  rfl

theorem Section.filter (h : Section ls hs texts) (hno : some '|' ∉ hs) :
    ls.filter (fun line => marked '|' line.toList) = [] := by
  rw [List.filter_eq_nil_iff]
  intro line hline
  rw [h.unmarked hno hline]
  exact Bool.false_ne_true

theorem Section.countP (h : Section ls hs texts) :
    ls.countP (fun line => marked '#' line.toList) = hs.count (some '#') := by
  rw [← h.heads, ScanLedger.heads, List.count, List.countP_map]
  rfl

end

/-! ### The tables -/

/-- Rows are rows, and no headings. -/
theorem filter_rows {α : Type} (f : α → List String) (l : List α) :
    (l.map fun x => tableRow (f x)).filter (fun line => marked '|' line.toList) =
      l.map fun x => tableRow (f x) := by
  rw [List.filter_eq_self]
  intro line hline
  obtain ⟨x, -, rfl⟩ := List.mem_map.mp hline
  exact marked_tableRow _

theorem countP_rows {α : Type} (f : α → List String) (l : List α) :
    (l.map fun x => tableRow (f x)).countP (fun line => marked '#' line.toList) = 0 := by
  rw [List.countP_eq_zero]
  intro line hline
  obtain ⟨x, -, rfl⟩ := List.mem_map.mp hline
  rw [tableRow_toList]
  exact Bool.false_ne_true

theorem runRow_eq (run : ModuleRunRow) : "| " ++ run.module ++ " | " ++ run.status.text ++ " | " ++
    toString run.findingCount ++ " | " ++ run.safeErrorMessage.getD "" ++ " |" =
      tableRow (runCells run) := by
  simp [tableRow, runCells, String.intercalate_cons_cons, String.append_assoc]

theorem findingLine_eq (row : FindingRow) :
    findingLine row.finding = tableRow (findingCells row) := by
  unfold findingLine tableRow findingCells
  generalize iso row.finding.observedAt = observed
  simp [String.intercalate_cons_cons, String.append_assoc]

theorem deniedRow_eq (row : ScanLedgerRow) :
    "| " ++ row.entry.destination ++ " | " ++ row.entry.reason ++ " |" =
      tableRow (deniedCells row) := by
  simp [tableRow, deniedCells, String.intercalate_cons_cons, String.append_assoc]

theorem tables_runLines (runs : List ModuleRunRow) :
    (runLines runs).filter (fun line => marked '|' line.toList) =
        (moduleTable runs).map tableRow ∧
      (runLines runs).countP (fun line => marked '#' line.toList) = 1 := by
  unfold runLines moduleTable
  simp only [runRow_eq, List.filter_append, List.countP_append, filter_rows, countP_rows]
  split_ifs <;> simp [marked, tableRow]

theorem tables_categoryLines (findings : List FindingRow) (category : FindingCategory) :
    (categoryLines true findings category).filter (fun line => marked '|' line.toList) =
        (findingTable findings category).map tableRow ∧
      (categoryLines true findings category).countP (fun line => marked '#' line.toList) = 1 := by
  unfold categoryLines findingTable
  dsimp only
  generalize findings.filter (·.finding.category == category) = rows
  cases rows with
  | nil => simp [marked]
  | cons row rows =>
    have hrows := filter_rows findingCells (row :: rows)
    have hcount := countP_rows findingCells (row :: rows)
    simp only [List.isEmpty_cons, Bool.false_eq_true, if_false, if_true, findingLine_eq,
      List.filter_append, List.countP_append, hrows, hcount]
    simp [marked, tableRow]

theorem tables_ledgerLines (ledger : List ScanLedgerRow) :
    (ledgerLines ledger).filter (fun line => marked '|' line.toList) =
        (deniedTable ledger).map tableRow ∧
      (ledgerLines ledger).countP (fun line => marked '#' line.toList) = 1 := by
  unfold ledgerLines deniedTable
  dsimp only
  generalize ledger.filter (·.entry.decision == .denied) = rows
  cases rows with
  | nil => simp [marked]
  | cons row rows =>
    have hrows := filter_rows deniedCells (row :: rows)
    have hcount := countP_rows deniedCells (row :: rows)
    simp only [List.isEmpty_cons, Bool.false_eq_true, if_false, deniedRow_eq, List.filter_append,
      List.countP_append, hrows, hcount]
    simp [marked, tableRow]

/-! ### The whole report -/

section

variable (now : ℚ) (inputs : ExportInputs)

/-- **The rows and headings of the report**, before its lines are joined. -/
theorem tables_markdownLines :
    (markdownLines now inputs true).filter (fun line => marked '|' line.toList) =
        (tableRows inputs).map tableRow ∧
      (markdownLines now inputs true).countP (fun line => marked '#' line.toList) = 11 := by
  obtain ⟨note, hdash, hscan⟩ := section_scanLines inputs.scan inputs.scope
  have hauthorization := section_authorizationLines inputs.scan
  have hbar := notMem_bar hdash
  have hnote : note.count (some '#') = 0 := by
    rw [List.count_eq_zero]
    exact fun h => absurd (hdash _ h) (by decide)
  have hfindings : ∀ category, _ := tables_categoryLines inputs.findings
  unfold markdownLines tableRows
  constructor
  · simp only [List.filter_append, List.filter_flatMap, hscan.filter hbar,
      hauthorization.filter (by decide), (tables_runLines inputs.runs).1, (hfindings _).1,
      (tables_ledgerLines inputs.ledger).1, List.map_append, List.map_flatMap]
    simp [marked]
  · simp only [List.countP_append, List.countP_flatMap, hscan.countP, hauthorization.countP,
      (tables_runLines inputs.runs).2, (hfindings _).2, (tables_ledgerLines inputs.ledger).2,
      Function.comp_def, List.count_append, hnote]
    simp [marked]

/-- No line of the report begins with a line break. -/
theorem head_markdownLines :
    ∀ line ∈ markdownLines now inputs true, line.toList.head? ≠ some '\n' := by
  obtain ⟨note, hdash, hscan⟩ := section_scanLines inputs.scan inputs.scope
  have hauthorization := section_authorizationLines inputs.scan
  have hruns : ∀ line ∈ runLines inputs.runs, line.toList.head? ≠ some '\n' := by
    unfold runLines
    dsimp only
    split_ifs <;> simp only [List.forall_mem_append, List.forall_mem_map] <;> simp
  have hfindings : ∀ category, ∀ line ∈ categoryLines true inputs.findings category,
      line.toList.head? ≠ some '\n' := by
    intro category
    unfold categoryLines findingLine
    dsimp only
    simp only [if_true, lt_irrefl, if_false]
    split_ifs <;> simp only [List.forall_mem_append, List.forall_mem_map] <;> simp
  have hledger : ∀ line ∈ ledgerLines inputs.ledger, line.toList.head? ≠ some '\n' := by
    unfold ledgerLines
    dsimp only
    split_ifs <;> simp only [List.forall_mem_append, List.forall_mem_map] <;> simp
  have hscans : ∀ line ∈ scanLines inputs.scan inputs.scope, line.toList.head? ≠ some '\n' := by
    intro line hline he
    have hmem := hscan.head_mem hline
    rw [he, List.mem_append] at hmem
    rcases hmem with hmem | hmem
    · revert hmem
      decide
    · exact absurd (hdash _ hmem) (by decide)
  have hauthorizations : ∀ line ∈ authorizationLines inputs.scan,
      line.toList.head? ≠ some '\n' := by
    intro line hline he
    have hmem := hauthorization.head_mem hline
    rw [he] at hmem
    revert hmem
    decide
  unfold markdownLines
  simp only [List.forall_mem_append, List.forall_mem_flatMap]
  exact ⟨⟨⟨⟨⟨⟨hscans, hauthorizations⟩, hruns⟩, by simp⟩, fun category _ => hfindings category⟩,
    hledger⟩, by simp⟩

end

theorem keepsLine_empty : KeepsLine "" := keepsLine_of_oneLine (by simp)

theorem keepsLine_nil : ∀ line ∈ [], KeepsLine line := List.forall_mem_nil KeepsLine

theorem keepsLine_literal {cs : List Char} (h : '\n' ∉ cs) : KeepsLine (String.ofList cs) :=
  keepsLine_of_oneLine (notMem_literal h)

/-- Texts that are on one line stay on it together. -/
theorem newline_append {s t : String} :
    '\n' ∉ (s ++ t).toList ↔ '\n' ∉ s.toList ∧ '\n' ∉ t.toList := by
  rw [String.toList_append, List.mem_append, not_or]

theorem keeps_runLines {runs : List ModuleRunRow}
    (hrows : ∀ cells ∈ moduleTable runs, KeepsLine (tableRow cells))
    (hmodules : ∀ run ∈ runs, '\n' ∉ run.module.toList) :
    ∀ line ∈ runLines runs, KeepsLine line := by
  have hruns : ∀ run ∈ runs, KeepsLine (tableRow (runCells run)) := by
    intro run hrun
    refine hrows _ (List.mem_cons_of_mem _ (List.mem_cons_of_mem _ ?_))
    exact List.mem_map.mpr ⟨run, hrun, rfl⟩
  have hjoin : '\n' ∉ (", ".intercalate
      ((runs.filter (·.status != .done)).map (·.module))).toList := by
    intro h
    rcases mem_intercalate h with h | ⟨text, htext, h⟩
    · revert h
      decide
    · obtain ⟨run, hrun, rfl⟩ := List.mem_map.mp htext
      exact hmodules run (List.mem_of_mem_filter hrun) h
  have hcount : '\n' ∉ (toString (runs.filter (·.status != .done)).length).toList :=
    (cellText_natCast _).1
  unfold runLines
  simp only [runRow_eq, List.forall_mem_append, List.forall_mem_map, List.forall_mem_cons]
  refine ⟨⟨?_, hruns⟩, ?_⟩
  · refine ⟨keepsLine_empty, ?_, keepsLine_empty, ?_, ?_, keepsLine_nil⟩ <;>
      (apply keepsLine_literal; decide)
  · split_ifs
    · exact keepsLine_nil
    · simp only [List.forall_mem_cons]
      refine ⟨keepsLine_empty, keepsLine_of_oneLine ?_, keepsLine_nil⟩
      simp only [newline_append]
      refine ⟨⟨⟨⟨⟨?_, hcount⟩, ?_⟩, hjoin⟩, ?_⟩, ?_⟩ <;> (apply notMem_literal; decide)

theorem keeps_categoryLines {findings : List FindingRow} {category : FindingCategory}
    (hrows : ∀ cells ∈ findingTable findings category, KeepsLine (tableRow cells)) :
    ∀ line ∈ categoryLines true findings category, KeepsLine line := by
  have htitle : KeepsLine ("### " ++ categoryTitle category) := by
    refine keepsLine_of_oneLine (newline_append.mpr ⟨?_, ?_⟩)
    · apply notMem_literal
      decide
    · cases category <;> (apply notMem_literal; decide)
  unfold findingTable at hrows
  unfold categoryLines
  dsimp only
  generalize findings.filter (·.finding.category == category) = rows at hrows ⊢
  cases rows with
  | nil =>
    simp only [List.isEmpty_nil, if_true, List.forall_mem_append, List.forall_mem_cons]
    refine ⟨⟨htitle, keepsLine_empty, keepsLine_nil⟩, ?_, keepsLine_empty, keepsLine_nil⟩
    apply keepsLine_literal
    decide
  | cons row rows =>
    simp only [List.forall_mem_cons, List.forall_mem_map] at hrows
    simp only [List.isEmpty_cons, Bool.false_eq_true, if_false, if_true, lt_irrefl, findingLine_eq,
      List.forall_mem_append, List.forall_mem_map, List.forall_mem_cons]
    refine ⟨⟨htitle, keepsLine_empty, keepsLine_nil⟩,
      ⟨⟨⟨?_, ?_, keepsLine_nil⟩, hrows.2.2⟩, keepsLine_nil⟩, keepsLine_empty, keepsLine_nil⟩ <;>
      (apply keepsLine_literal; decide)

theorem keeps_ledgerLines {ledger : List ScanLedgerRow}
    (hrows : ∀ cells ∈ deniedTable ledger, KeepsLine (tableRow cells)) :
    ∀ line ∈ ledgerLines ledger, KeepsLine line := by
  unfold deniedTable at hrows
  unfold ledgerLines
  dsimp only
  generalize ledger.filter (·.entry.decision == .denied) = rows at hrows ⊢
  have hcount : ∀ (n : ℕ) (before : String), '\n' ∉ before.toList →
      KeepsLine (before ++ toString n ++ "**") := by
    intro n before hbefore
    refine keepsLine_of_oneLine ?_
    rw [newline_append, newline_append]
    refine ⟨⟨hbefore, (cellText_natCast n).1⟩, ?_⟩
    apply notMem_literal
    decide
  have hlead : ∀ (m n : ℕ), ∀ line ∈ ["## Audit ledger", "",
      "- Destinations allowed and probed: **" ++ toString m ++ "**",
      "- Destinations denied before any packet: **" ++ toString n ++ "**", ""],
      KeepsLine line := by
    intro m n
    simp only [List.forall_mem_cons]
    refine ⟨?_, keepsLine_empty, hcount m _ ?_, hcount n _ ?_, keepsLine_empty, keepsLine_nil⟩
    · apply keepsLine_literal
      decide
    · apply notMem_literal
      decide
    · apply notMem_literal
      decide
  rw [List.forall_mem_append]
  refine ⟨hlead _ _, ?_⟩
  cases rows with
  | nil => exact keepsLine_nil
  | cons row rows =>
    simp only [List.forall_mem_cons, List.forall_mem_map] at hrows
    simp only [List.isEmpty_cons, Bool.false_eq_true, if_false, deniedRow_eq,
      List.forall_mem_append, List.forall_mem_map, List.forall_mem_cons]
    refine ⟨⟨⟨?_, ?_, keepsLine_nil⟩, hrows.2.2⟩, keepsLine_empty, keepsLine_nil⟩ <;>
      (apply keepsLine_literal; decide)

/-! ### Unforged reports -/

section

variable (now : ℚ) (inputs : ExportInputs)

/-- The rows of a table that are the program's own. -/
def ownRows : List (List String) :=
  [["Module", "Status", "Findings", "Reason"], ["---", "---", "---", "---"],
    ["Host", "Port", "Finding", "Module", "Observed"], ["---", "---", "---", "---", "---"],
    ["Destination", "Reason"], ["---", "---"]]

theorem cellText_ownRows : ∀ cells ∈ ownRows, ∀ cell ∈ cells, CellText cell := by
  unfold ownRows
  simp only [List.forall_mem_cons]
  and_intros <;> first | exact List.forall_mem_nil _ | (apply notMem_literal; decide)

/-- What the tables hold: their headers, and a row for each module run, finding
and denied entry. -/
theorem mem_tableRows {cells : List String} (h : cells ∈ tableRows inputs) :
    cells ∈ ownRows ∨ (∃ run ∈ inputs.runs, runCells run = cells) ∨
      (∃ row ∈ inputs.findings, findingCells row = cells) ∨
      ∃ row ∈ inputs.ledger, row.entry.decision = .denied ∧ deniedCells row = cells := by
  unfold tableRows at h
  rw [List.mem_append, List.mem_append, List.mem_flatMap] at h
  rcases h with (h | ⟨category, -, h⟩) | h
  · unfold moduleTable at h
    rw [List.mem_cons, List.mem_cons, List.mem_map] at h
    rcases h with rfl | rfl | h
    · exact Or.inl (by decide)
    · exact Or.inl (by decide)
    · exact Or.inr (Or.inl h)
  · unfold findingTable at h
    split at h
    · cases h
    · rename_i row rows hrows
      rw [← hrows, List.mem_cons, List.mem_cons, List.mem_map] at h
      rcases h with rfl | rfl | ⟨found, hfound, rfl⟩
      · exact Or.inl (by decide)
      · exact Or.inl (by decide)
      · exact Or.inr (Or.inr (Or.inl ⟨found, List.mem_of_mem_filter hfound, rfl⟩))
  · unfold deniedTable at h
    split at h
    · cases h
    · rename_i row rows hrows
      rw [← hrows, List.mem_cons, List.mem_cons, List.mem_map] at h
      rcases h with rfl | rfl | ⟨denied, hdenied, rfl⟩
      · exact Or.inl (by decide)
      · exact Or.inl (by decide)
      · obtain ⟨hmem, hdecision⟩ := List.mem_filter.mp hdenied
        exact Or.inr (Or.inr (Or.inr ⟨denied, hmem, eq_of_beq hdecision, rfl⟩))

theorem runCells_mem {run : ModuleRunRow} (h : run ∈ inputs.runs) :
    runCells run ∈ tableRows inputs := by
  refine List.mem_append_left _ (List.mem_append_left _ ?_)
  exact List.mem_cons_of_mem _ (List.mem_cons_of_mem _ (List.mem_map_of_mem h))

theorem findingCells_mem {row : FindingRow} (h : row ∈ inputs.findings) :
    findingCells row ∈ tableRows inputs := by
  have hmem : row ∈ inputs.findings.filter (·.finding.category == row.finding.category) :=
    List.mem_filter.mpr ⟨h, beq_self_eq_true _⟩
  refine List.mem_append_left _ (List.mem_append_right _ ?_)
  refine List.mem_flatMap.mpr ⟨row.finding.category, ?_, ?_⟩
  · cases row.finding.category <;> decide
  · unfold findingTable
    split
    · rename_i hnil
      rw [hnil] at hmem
      cases hmem
    · rename_i first rest hrows
      rw [← hrows]
      exact List.mem_cons_of_mem _ (List.mem_cons_of_mem _ (List.mem_map_of_mem hmem))

theorem deniedCells_mem {row : ScanLedgerRow} (h : row ∈ inputs.ledger)
    (hdenied : row.entry.decision = .denied) : deniedCells row ∈ tableRows inputs := by
  have hmem : row ∈ inputs.ledger.filter (·.entry.decision == .denied) :=
    List.mem_filter.mpr ⟨h, by rw [hdenied]; rfl⟩
  refine List.mem_append_right _ ?_
  unfold deniedTable
  split
  · rename_i hnil
    rw [hnil] at hmem
    cases hmem
  · rename_i first rest hrows
    rw [← hrows]
    exact List.mem_cons_of_mem _ (List.mem_cons_of_mem _ (List.mem_map_of_mem hmem))

/-- The cells of all rows are as they should be when the stored texts are. -/
theorem cellText_tableRows :
    (∀ cells ∈ tableRows inputs, ∀ cell ∈ cells, CellText cell) ↔
      (∀ run ∈ inputs.runs, CellText run.module ∧ CellText (run.safeErrorMessage.getD "")) ∧
      (∀ row ∈ inputs.findings,
        CellText row.finding.host ∧ CellText row.finding.title ∧ CellText row.finding.module) ∧
      ∀ row ∈ inputs.ledger, row.entry.decision = .denied →
        CellText row.entry.destination ∧ CellText row.entry.reason := by
  constructor
  · intro h
    refine ⟨fun run hrun => ?_, fun row hrow => ?_, fun row hrow hdenied => ?_⟩
    · have hcells := h _ (runCells_mem inputs hrun)
      exact ⟨hcells _ (by simp [runCells]), hcells _ (by simp [runCells])⟩
    · have hcells := h _ (findingCells_mem inputs hrow)
      exact ⟨hcells _ (by simp [findingCells]), hcells _ (by simp [findingCells]),
        hcells _ (by simp [findingCells])⟩
    · have hcells := h _ (deniedCells_mem inputs hrow hdenied)
      exact ⟨hcells _ (by simp [deniedCells]), hcells _ (by simp [deniedCells])⟩
  · rintro ⟨hruns, hfindings, hdenied⟩ cells hmem
    rcases mem_tableRows inputs hmem with hown | ⟨run, hrun, rfl⟩ | ⟨row, hrow, rfl⟩ |
      ⟨row, hrow, hdecision, rfl⟩
    · exact cellText_ownRows cells hown
    · obtain ⟨hmodule, hreason⟩ := hruns run hrun
      have hcount : CellText run.findingCount.repr := cellText_natCast run.findingCount
      simp [runCells, hmodule, hreason, hcount, cellText_moduleStatus]
    · obtain ⟨hhost, htitle, hmodule⟩ := hfindings row hrow
      simp [findingCells, hhost, htitle, hmodule, cellText_port, cellText_iso]
    · obtain ⟨hdestination, hreason⟩ := hdenied row hrow hdecision
      simp [deniedCells, hdestination, hreason]

theorem tableRows_ne_nil {cells : List String} (h : cells ∈ tableRows inputs) : cells ≠ [] := by
  rcases mem_tableRows inputs h with hown | ⟨run, -, rfl⟩ | ⟨row, -, rfl⟩ | ⟨row, -, -, rfl⟩
  · rintro rfl
    exact absurd hown (by decide)
  · exact List.cons_ne_nil _ _
  · exact List.cons_ne_nil _ _
  · exact List.cons_ne_nil _ _

/-- The texts outside the tables. -/
theorem keeps_freeTexts : (∀ text ∈ freeTexts inputs.scan inputs.scope, StartsNothing text) ↔
    (∀ line ∈ scanLines inputs.scan inputs.scope, KeepsLine line) ∧
      ∀ line ∈ authorizationLines inputs.scan, KeepsLine line := by
  obtain ⟨note, hdash, hscan⟩ := section_scanLines inputs.scan inputs.scope
  have hbar := notMem_bar hdash
  rw [hscan.keeps hbar, (section_authorizationLines inputs.scan).keeps (by decide)]
  unfold freeTexts
  simp only [List.forall_mem_append, List.forall_mem_cons]
  tauto

theorem keepsLine_generated {text : String} (h : '\n' ∉ text.toList) :
    ∀ line ∈ ["_Generated " ++ text ++ " from stored evidence; no probes were sent._"],
      KeepsLine line := by
  have hline : '\n' ∉ ("_Generated " ++ text ++
      " from stored evidence; no probes were sent._").toList := by
    rw [newline_append, newline_append]
    refine ⟨⟨?_, h⟩, ?_⟩ <;> (apply notMem_literal; decide)
  intro line hmem
  rw [List.mem_singleton.mp hmem]
  exact keepsLine_of_oneLine hline

/-- Each line of the report keeps its line when the texts outside the tables
begin nothing and the rows are each on one line. -/
theorem keeps_markdownLines
    (hfree : ∀ text ∈ freeTexts inputs.scan inputs.scope, StartsNothing text)
    (hcells : ∀ cells ∈ tableRows inputs, ∀ cell ∈ cells, '\n' ∉ cell.toList) :
    ∀ line ∈ markdownLines now inputs true, KeepsLine line := by
  obtain ⟨hscans, hauthorizations⟩ := (keeps_freeTexts inputs).mp hfree
  have hrow : ∀ cells ∈ tableRows inputs, KeepsLine (tableRow cells) := fun cells hmem =>
    keepsLine_of_oneLine (newline_tableRow.mpr (hcells cells hmem))
  have hruns : ∀ line ∈ runLines inputs.runs, KeepsLine line := by
    refine keeps_runLines (fun cells hmem => hrow cells ?_) fun run hrun => ?_
    · exact List.mem_append_left _ (List.mem_append_left _ hmem)
    · exact hcells _ (runCells_mem inputs hrun) _ (by simp [runCells])
  have hfindings : ∀ category ∈ [.liveHost, .portService, .enumeration, .vulnerability],
      ∀ line ∈ categoryLines true inputs.findings category, KeepsLine line := by
    intro category hcategory
    refine keeps_categoryLines fun cells hmem => hrow cells ?_
    refine List.mem_append_left _ (List.mem_append_right _ ?_)
    exact List.mem_flatMap.mpr ⟨category, hcategory, hmem⟩
  have hledger : ∀ line ∈ ledgerLines inputs.ledger, KeepsLine line :=
    keeps_ledgerLines fun cells hmem => hrow cells (List.mem_append_right _ hmem)
  have htitle : ∀ line ∈ ["", "## Findings", ""], KeepsLine line := by
    simp only [List.forall_mem_cons]
    refine ⟨keepsLine_empty, ?_, keepsLine_empty, keepsLine_nil⟩
    apply keepsLine_literal
    decide
  have hend := keepsLine_generated (cellText_iso now).1
  unfold markdownLines
  simp only [List.forall_mem_append, List.forall_mem_flatMap]
  exact ⟨⟨⟨⟨⟨⟨hscans, hauthorizations⟩, hruns⟩, htitle⟩, hfindings⟩, hledger⟩, hend⟩

/-- What is read of the joined lines, line by line. -/
theorem reportLines_iff : ((reportLines now inputs).filter (marked '|') =
      (tableRows inputs).map (fun cells => (tableRow cells).toList) ∧
    (reportLines now inputs).countP (marked '#') = 11) ↔
      ∀ line ∈ markdownLines now inputs true, KeepsLine line := by
  obtain ⟨hrows, hheadings⟩ := tables_markdownLines now inputs
  have htext : (buildMarkdownExport now inputs true).toList =
      ['\n'].intercalate ((markdownLines now inputs true).map String.toList) := by
    unfold buildMarkdownExport
    rw [String.toList_intercalate]
    rfl
  have hne : (markdownLines now inputs true).map String.toList ≠ [] := by
    unfold markdownLines
    simp
  have hhead : ∀ l ∈ (markdownLines now inputs true).map String.toList,
      l.head? ≠ some '\n' := by
    rw [List.forall_mem_map]
    exact head_markdownLines now inputs
  have hiff : _ ↔ ∀ l ∈ _, Keeps '|' '#' l := marked_iff hne hhead
  rw [List.filter_map, List.countP_map, Function.comp_def, Function.comp_def, hrows, hheadings,
    List.map_map, ← htext, List.forall_mem_map] at hiff
  exact hiff

end

/-! ### A certificate with a pipe in its subject -/

def certificateRow : FindingRow where
  scanId := 1
  finding := ⟨"10.10.0.5", .enumeration, "tls.cert", "presents a TLS certificate for CN=a|b",
    "Negotiated TLS.", "protocol_enum", "tls/443", some 443, .object [], none, some .high, [], 0⟩

def certificateInputs : ExportInputs := ⟨labScan, labScopeRow, [], [certificateRow], []⟩

end ScanLedger
