/-
CppLint.ClangTidy.ParseTheorems — what `parse_stdout` reads.

A line is accepted exactly when it is a well-formed header written out
(`parseDiagnosticHeader_eq_some_iff`), the blanks before the severity being
all that is lost. Over the lines, `parse_stdout` is a one-pass reader of the
segments that accepted lines open (`collects_parseLine`), so the diagnostics
are the segments of the output (`parseStdout_of_segmentation`).

The last two sections ask what the parser means for its two neighbours:
which lines clang-tidy prints it recognises, and which of the rows and
columns it accepts `make_review_comment` can convert.
-/
import CppLint.ClangTidy.Reporter
import CppLint.ClangTidy.ReviewTheorems
import CppLint.Lib.Segments

namespace CppLint.ClangTidy

open CppLint.Lib CppLint.Git CppLint.Tool CppLint.Github

/-! ## Accepted lines -/

/-- What the parser makes sure of in a header. -/
structure DiagnosticHeader.WellFormed (h : DiagnosticHeader) : Prop where
  fileName_colon : ':' ∉ h.fileName.toList
  rowIdx_digits : ∀ c ∈ h.rowIdx.toList, c.isDigit = true
  colIdx_digits : ∀ c ∈ h.colIdx.toList, c.isDigit = true
  serverity_supported : h.serverity ∈ supportedServerity
  brief_colon : ':' ∉ h.brief.toList
  brief_bracket : '[' ∉ h.brief.toList
  type_colon : ':' ∉ h.diagnosticType.toList
  type_brackets : ∃ name, h.diagnosticType.toList = '[' :: (name ++ [']'])
  size : 3 ≤ h.brief.toList.length + h.diagnosticType.toList.length

/-- A header written out, `blanks` before its severity. -/
def headerLine (h : DiagnosticHeader) (blanks : String) : String :=
  h.fileName ++ ":" ++ h.rowIdx ++ ":" ++ h.colIdx ++ ":" ++ blanks ++ h.serverity ++ ":"
    ++ h.brief ++ h.diagnosticType

/-- The string has blanks only. -/
def Blank (s : String) : Prop := ∀ c ∈ s.toList, isBlank c = true

instance (s : String) : Decidable (Blank s) :=
  decidable_of_iff (s.toList.all isBlank = true) List.all_eq_true

theorem not_mem_of_digits {cs : List Char} {c : Char} (h : ∀ d ∈ cs, d.isDigit = true)
    (hc : c.isDigit = false) : c ∉ cs := by
  intro hmem
  rw [h c hmem] at hc
  exact Bool.noConfusion hc

theorem not_mem_of_blank {s : String} {c : Char} (h : Blank s) (hc : isBlank c = false) :
    c ∉ s.toList := by
  intro hmem
  rw [h c hmem] at hc
  exact Bool.noConfusion hc

theorem toList_headerLine (h : DiagnosticHeader) (blanks : String) :
    (headerLine h blanks).toList =
      [':'].intercalate [h.fileName.toList, h.rowIdx.toList, h.colIdx.toList,
        blanks.toList ++ h.serverity.toList, h.brief.toList ++ h.diagnosticType.toList] := by
  simp [headerLine, List.intercalate]

theorem trimLeft_serverity {blanks : List Char} {serverity : String}
    (hblanks : ∀ b ∈ blanks, isBlank b = true) (hs : serverity ∈ supportedServerity) :
    trimLeft (blanks ++ serverity.toList) = serverity.toList := by
  simp only [supportedServerity, List.mem_cons, List.not_mem_nil, or_false] at hs
  rcases hs with rfl | rfl | rfl <;> exact trimLeft_append hblanks (by decide)

theorem serverity_colon {serverity : String} (hs : serverity ∈ supportedServerity) :
    ':' ∉ serverity.toList := by
  simp only [supportedServerity, List.mem_cons, List.not_mem_nil, or_false] at hs
  rcases hs with rfl | rfl | rfl <;> decide

theorem splitFields_headerLine {h : DiagnosticHeader} (hwf : h.WellFormed) {blanks : String}
    (hblanks : Blank blanks) :
    splitFields (headerLine h blanks).toList ':' =
      [h.fileName.toList, h.rowIdx.toList, h.colIdx.toList,
        blanks.toList ++ h.serverity.toList, h.brief.toList ++ h.diagnosticType.toList] := by
  rw [toList_headerLine, splitFields]
  apply List.splitOn_intercalate
  · have hblank := not_mem_of_blank (c := ':') hblanks (by decide)
    have hserverity := serverity_colon hwf.serverity_supported
    simp only [List.mem_cons, List.not_mem_nil, or_false, forall_eq_or_imp, forall_eq,
      List.mem_append, not_or]
    exact ⟨hwf.fileName_colon, not_mem_of_digits hwf.rowIdx_digits (by decide),
      not_mem_of_digits hwf.colIdx_digits (by decide), ⟨hblank, hserverity⟩,
      hwf.brief_colon, hwf.type_colon⟩
  · simp

/-- What is cut at the first `[` of a string that ends in `]`. -/
theorem brackets_of_findIdx? {cs : List Char} {i : Nat}
    (hi : cs.findIdx? (· = '[') = some i) (hlast : cs.getLast? = some ']') :
    '[' ∉ cs.take i ∧ ∃ name, cs.drop i = '[' :: (name ++ [']']) := by
  obtain ⟨hlt, hat, hbefore⟩ := List.findIdx?_eq_some_iff_getElem.mp hi
  have hbracket : cs[i] = '[' := by simpa using hat
  constructor
  · intro hmem
    obtain ⟨j, hj, hget⟩ := List.mem_iff_getElem.mp hmem
    rw [List.length_take] at hj
    rw [List.getElem_take] at hget
    exact hbefore j (by omega) (by simp [hget])
  · have hdrop := List.drop_eq_getElem_cons hlt
    rw [hbracket] at hdrop
    have hlast' : (cs.drop i).getLast? = some ']' := by
      rw [List.getLast?_drop, if_neg (by omega), hlast]
    rw [hdrop] at hlast' ⊢
    cases hrest : cs.drop (i + 1) with
    | nil => simp [hrest] at hlast'
    | cons c rest =>
        rw [hrest, List.getLast?_cons_cons] at hlast'
        obtain ⟨name, hname⟩ := List.getLast?_eq_some_iff.mp hlast'
        exact ⟨name, by rw [hname]⟩

theorem findIdx?_brackets {brief rest : List Char} (h : '[' ∉ brief) :
    (brief ++ '[' :: rest).findIdx? (· = '[') = some brief.length := by
  have hnone : brief.findIdx? (· = '[') = none := by
    rw [List.findIdx?_eq_none_iff]
    intro c hc
    exact decide_eq_false (fun heq => h (heq ▸ hc))
  rw [List.findIdx?_append, hnone]
  simp [List.findIdx?_cons]

/-- What is accepted is a well-formed header written out. -/
theorem wellFormed_of_parseDiagnosticHeader {line : String} {h : DiagnosticHeader}
    (hparse : parseDiagnosticHeader line = some h) :
    h.WellFormed ∧ ∃ blanks, Blank blanks ∧ line = headerLine h blanks := by
  unfold parseDiagnosticHeader at hparse
  split at hparse
  · rename_i fileName rowIdx colIdx fourth diagnosticType hfields
    obtain ⟨hline, hcolon⟩ := splitFields_spec hfields
    obtain ⟨blanks, hblanks, hfourth⟩ := exists_blanks_trimLeft fourth
    simp only [List.mem_cons, List.not_mem_nil, or_false, forall_eq_or_imp, forall_eq] at hcolon
    split at hparse
    · cases hparse
    rename_i hrow
    dsimp only at hparse
    split at hparse
    · cases hparse
    rename_i hcol
    split at hparse
    · cases hparse
    rename_i hserverity
    split at hparse
    · cases hparse
    rename_i squareBrackets hbracket
    split at hparse
    · cases hparse
    rename_i hsize
    cases hparse
    rw [Bool.or_eq_true, not_or] at hsize
    obtain ⟨hlong, hlast⟩ := hsize
    obtain ⟨hbrief, hname⟩ := brackets_of_findIdx? hbracket (by simpa using hlast)
    refine ⟨⟨?_, ?_, ?_, ?_, ?_, ?_, ?_, ?_, ?_⟩, String.ofList blanks, ?_, ?_⟩
    · simpa using hcolon.1
    · simpa using hrow
    · simpa using hcol
    · simpa using hserverity
    · simpa using fun hmem => hcolon.2.2.2.2 (List.mem_of_mem_take hmem)
    · simpa using hbrief
    · simpa using fun hmem => hcolon.2.2.2.2 (List.mem_of_mem_drop hmem)
    · simpa using hname
    · rw [String.toList_ofList, String.toList_ofList, ← List.length_append,
        List.take_append_drop]
      simpa using hlong
    · simpa [Blank] using hblanks
    · rw [← String.toList_inj, toList_headerLine, hline]
      simp [← hfourth]
  · cases hparse

/-- A well-formed header written out is accepted. -/
theorem parseDiagnosticHeader_headerLine {h : DiagnosticHeader} (hwf : h.WellFormed)
    {blanks : String} (hblanks : Blank blanks) :
    parseDiagnosticHeader (headerLine h blanks) = some h := by
  obtain ⟨name, hname⟩ := hwf.type_brackets
  have hrow : h.rowIdx.toList.all Char.isDigit = true := by simpa using hwf.rowIdx_digits
  have hcol : h.colIdx.toList.all Char.isDigit = true := by simpa using hwf.colIdx_digits
  have hsize := hwf.size
  rw [hname] at hsize
  have hlast : (h.brief.toList ++ '[' :: (name ++ [']'])).getLast? = some ']' := by
    simp [List.getLast?_append, List.getLast?_cons]
  have htype : String.ofList ('[' :: (name ++ [']'])) = h.diagnosticType := by
    rw [← hname, String.ofList_toList]
  unfold parseDiagnosticHeader
  rw [splitFields_headerLine hwf hblanks, hname]
  dsimp only
  rw [findIdx?_brackets hwf.brief_bracket, trimLeft_serverity hblanks hwf.serverity_supported,
    hlast]
  simp [hrow, hcol, hwf.serverity_supported, htype]
  simpa using hsize

/-- **Acceptance**: the accepted lines are the well-formed headers written
out, with blanks before the severity. -/
theorem parseDiagnosticHeader_eq_some_iff {line : String} {h : DiagnosticHeader} :
    parseDiagnosticHeader line = some h ↔
      h.WellFormed ∧ ∃ blanks, Blank blanks ∧ line = headerLine h blanks := by
  refine ⟨wellFormed_of_parseDiagnosticHeader, ?_⟩
  rintro ⟨hwf, blanks, hblanks, rfl⟩
  exact parseDiagnosticHeader_headerLine hwf hblanks

/-- **Nothing is lost**: an accepted line is its header written out, the
colons and some blanks between the parts, and each part is as the parser
checked it. Another line with the same header has other blanks there, and
nothing else is different. -/
theorem parseDiagnosticHeader_lossless {line : String} {h : DiagnosticHeader}
    (hparse : parseDiagnosticHeader line = some h) :
    ∃ blanks, Blank blanks ∧
      line = h.fileName ++ ":" ++ h.rowIdx ++ ":" ++ h.colIdx ++ ":" ++ blanks ++ h.serverity
        ++ ":" ++ h.brief ++ h.diagnosticType ∧
      (':' ∉ h.fileName.toList ∧ ':' ∉ h.rowIdx.toList ∧ ':' ∉ h.colIdx.toList) ∧
      (∀ c ∈ h.rowIdx.toList, c.isDigit = true) ∧
      (∀ c ∈ h.colIdx.toList, c.isDigit = true) ∧
      h.serverity ∈ supportedServerity ∧
      '[' ∉ h.brief.toList ∧
      (∃ name, h.diagnosticType.toList = '[' :: (name ++ [']'])) ∧
      ∀ line', parseDiagnosticHeader line' = some h → line' ≠ line →
        ∃ blanks', Blank blanks' ∧ blanks' ≠ blanks ∧
          line' = h.fileName ++ ":" ++ h.rowIdx ++ ":" ++ h.colIdx ++ ":" ++ blanks'
            ++ h.serverity ++ ":" ++ h.brief ++ h.diagnosticType := by
  obtain ⟨hwf, blanks, hblanks, hline⟩ := wellFormed_of_parseDiagnosticHeader hparse
  have hrow : ':' ∉ h.rowIdx.toList := not_mem_of_digits hwf.rowIdx_digits (by decide)
  have hcol : ':' ∉ h.colIdx.toList := not_mem_of_digits hwf.colIdx_digits (by decide)
  refine ⟨blanks, hblanks, hline, ⟨hwf.fileName_colon, hrow, hcol⟩, hwf.rowIdx_digits,
    hwf.colIdx_digits, hwf.serverity_supported, hwf.brief_bracket, hwf.type_brackets, ?_⟩
  intro line' hparse' hne
  obtain ⟨-, blanks', hblanks', hline'⟩ := wellFormed_of_parseDiagnosticHeader hparse'
  refine ⟨blanks', hblanks', ?_, hline'⟩
  rintro rfl
  exact hne (hline'.trans hline.symm)

/-- Two lines with the same header: their blanks are different. -/
theorem parseDiagnosticHeader_lossless_twoBlanks :
    ∃ blanks blanks', Blank blanks ∧ Blank blanks' ∧ blanks' ≠ blanks ∧
      "a.c:1:2:  error: x [y]" =
        "a.c" ++ ":" ++ "1" ++ ":" ++ "2" ++ ":" ++ blanks ++ "error" ++ ":" ++ " x " ++ "[y]" ∧
      "a.c:1:2: error: x [y]" =
        "a.c" ++ ":" ++ "1" ++ ":" ++ "2" ++ ":" ++ blanks' ++ "error" ++ ":" ++ " x " ++ "[y]" := by
  have hparse : parseDiagnosticHeader "a.c:1:2:  error: x [y]" =
      some ⟨"a.c", "1", "2", "error", " x ", "[y]"⟩ := by decide
  obtain ⟨blanks, hblanks, hline, -, -, -, -, -, -, hother⟩ :=
    parseDiagnosticHeader_lossless hparse
  obtain ⟨blanks', hblanks', hne, hline'⟩ :=
    hother "a.c:1:2: error: x [y]" (by decide) (by decide)
  exact ⟨blanks, blanks', hblanks, hblanks', hne, hline, hline'⟩

/-! ## Segments of the output -/

/-- The lines of the output in their order. -/
def outputLines (stdOut : String) : List String :=
  (stdOut.toList.splitOn '\n').map String.ofList

/-- The diagnostic a segment of the output stands for. -/
def diagnosticOf (g : Segment String DiagnosticHeader) : Diagnostic where
  header := g.value
  details := String.join g.body

theorem appendDetails_concat (diags : List Diagnostic) (d : Diagnostic) (line : String) :
    appendDetails (diags ++ [d]) line = diags ++ [{ d with details := d.details ++ line }] := by
  induction diags with
  | nil => rfl
  | cons d' diags ih =>
      cases diags with
      | nil => rfl
      | cons d'' diags => exact congrArg (d' :: ·) ih

/-- The loop of `parse_stdout` collects segments: `diags` holds theirs, and
`needs_details` says that there is one. -/
theorem collects_parseLine :
    Collects parseDiagnosticHeader parseLine
      (fun groups => (groups.map diagnosticOf, !groups.isEmpty)) where
  skips line hnone := by
    unfold parseLine
    rw [hnone]
    rfl
  opens groups line h hsome := by
    unfold parseLine
    rw [hsome]
    simp [diagnosticOf, String.join]
  appends groups g line hnone := by
    unfold parseLine
    rw [hnone]
    have hnonempty : ∀ g', (groups ++ [g']).isEmpty = false := by
      intro g'
      cases groups <;> rfl
    simp [diagnosticOf, appendDetails_concat, String.join, hnonempty]

/-- The diagnostics are the segments of the output. -/
theorem parseStdout_of_segmentation {stdOut : String} {before : List String}
    {groups : List (Segment String DiagnosticHeader)}
    (h : Segmentation parseDiagnosticHeader (outputLines stdOut) before groups) :
    parseStdout stdOut = groups.map diagnosticOf := by
  have hfold := h.foldl_eq collects_parseLine
  exact congrArg Prod.fst hfold

theorem outputLines_append (a b : String) :
    outputLines (a ++ "\n" ++ b) = outputLines a ++ outputLines b := by
  unfold outputLines
  rw [← List.map_append, ← List.splitOn_append_cons_self]
  simp

/-- `parse_stdout` segments the output: it has one diagnostic for each
accepted line, in order, with the header read from that line and the lines
up to the next accepted one as its details; so outputs may be parsed apart
where the second begins with an accepted line. -/
theorem parseStdout_segments :
    (∀ stdOut : String, ∃ before groups,
      Segmentation parseDiagnosticHeader (outputLines stdOut) before groups ∧
        parseStdout stdOut = groups.map (fun g => ⟨g.value, String.join g.body⟩)) ∧
    ∀ (a b firstLine : String), (outputLines b).head? = some firstLine →
      (parseDiagnosticHeader firstLine).isSome →
        parseStdout (a ++ "\n" ++ b) = parseStdout a ++ parseStdout b := by
  constructor
  · intro stdOut
    obtain ⟨before, groups, h⟩ := exists_segmentation parseDiagnosticHeader (outputLines stdOut)
    exact ⟨before, groups, h, parseStdout_of_segmentation h⟩
  · intro a b firstLine hfirst haccepted
    obtain ⟨before, groups, ha⟩ := exists_segmentation parseDiagnosticHeader (outputLines a)
    obtain ⟨before', groups', hb⟩ := exists_segmentation parseDiagnosticHeader (outputLines b)
    cases hb.before_eq_nil hfirst haccepted
    have hab := ha.append hb
    rw [← outputLines_append] at hab
    rw [parseStdout_of_segmentation hab, parseStdout_of_segmentation ha,
      parseStdout_of_segmentation hb, List.map_append]

/-- Outputs `a` and `b` as in the second part: a header with its note, then a
header. -/
theorem parseStdout_segments_append :
    parseStdout ("a.c:1:2: error: x [y]\nint n;" ++ "\n" ++ "b.c:3:4: warning: z [w]\n") =
      parseStdout "a.c:1:2: error: x [y]\nint n;" ++ parseStdout "b.c:3:4: warning: z [w]\n" :=
  parseStdout_segments.2 _ _ "b.c:3:4: warning: z [w]" (by decide) (by decide)

/-! ## The headers clang-tidy prints -/

/-- The parts of a header line that clang-tidy prints. -/
structure PrintedHeader where
  file : String
  row : String
  col : String
  severity : String
  message : String
  check : String
  file_nonempty : file ≠ ""
  file_plain : ':' ∉ file.toList ∧ '\n' ∉ file.toList
  row_nonempty : row ≠ ""
  row_digits : ∀ c ∈ row.toList, c.isDigit = true
  col_nonempty : col ≠ ""
  col_digits : ∀ c ∈ col.toList, c.isDigit = true
  severity_supported : severity ∈ supportedServerity
  message_oneLine : '\n' ∉ message.toList
  check_nonempty : check ≠ ""
  check_plain : '[' ∉ check.toList ∧ ']' ∉ check.toList ∧ '\n' ∉ check.toList

/-- `file:row:col: severity: message [check]`. -/
def PrintedHeader.line (p : PrintedHeader) : String :=
  p.file ++ ":" ++ p.row ++ ":" ++ p.col ++ ": " ++ p.severity ++ ": " ++ p.message ++ " ["
    ++ p.check ++ "]"

/-- The line is read back: each part as it is, the message up to blanks
around it. -/
def PrintedHeader.Recognised (p : PrintedHeader) : Prop :=
  ∃ h, parseDiagnosticHeader p.line = some h ∧ h.fileName = p.file ∧ h.rowIdx = p.row ∧
    h.colIdx = p.col ∧ h.serverity = p.severity ∧ h.diagnosticType = "[" ++ p.check ++ "]" ∧
    ∃ left right, Blank left ∧ Blank right ∧ h.brief = left ++ p.message ++ right

/-- What stands behind the severity's colon. -/
def PrintedHeader.rest (p : PrintedHeader) : List Char :=
  (' ' :: p.message.toList ++ [' ']) ++ ('[' :: (p.check.toList ++ [']']))

theorem PrintedHeader.splitFields_line (p : PrintedHeader) :
    splitFields p.line.toList ':' =
      p.file.toList :: p.row.toList :: p.col.toList :: (' ' :: p.severity.toList) ::
        splitFields p.rest ':' := by
  have hrow : ':' ∉ p.row.toList := not_mem_of_digits p.row_digits (by decide)
  have hcol : ':' ∉ p.col.toList := not_mem_of_digits p.col_digits (by decide)
  have hseverity : ':' ∉ ' ' :: p.severity.toList := by
    simpa using serverity_colon p.severity_supported
  have hline : p.line.toList =
      p.file.toList ++ ':' :: (p.row.toList ++ ':' :: (p.col.toList ++ ':' ::
        ((' ' :: p.severity.toList) ++ ':' :: p.rest))) := by
    simp [PrintedHeader.line, PrintedHeader.rest]
  rw [hline]
  unfold splitFields
  rw [List.splitOn_append_cons_self_of_not_mem p.file_plain.1,
    List.splitOn_append_cons_self_of_not_mem hrow, List.splitOn_append_cons_self_of_not_mem hcol,
    List.splitOn_append_cons_self_of_not_mem hseverity]

/-- The header that should be read from the line. -/
def PrintedHeader.expected (p : PrintedHeader) : DiagnosticHeader where
  fileName := p.file
  rowIdx := p.row
  colIdx := p.col
  serverity := p.severity
  brief := " " ++ p.message ++ " "
  diagnosticType := "[" ++ p.check ++ "]"

theorem PrintedHeader.line_eq (p : PrintedHeader) : p.line = headerLine p.expected " " := by
  rw [← String.toList_inj]
  simp [PrintedHeader.line, headerLine, PrintedHeader.expected]

/-- `parse_diagnostic_header` recognises a header line that clang-tidy prints
exactly when its message has no colon and no opening bracket and the name of
the check has no colon. -/
theorem PrintedHeader.recognised_iff (p : PrintedHeader) :
    p.Recognised ↔
      ':' ∉ p.message.toList ∧ '[' ∉ p.message.toList ∧ ':' ∉ p.check.toList := by
  constructor
  · rintro ⟨h, hparse, -, -, -, -, htype, -⟩
    obtain ⟨hwf, blanks, hblanks, hline⟩ := parseDiagnosticHeader_eq_some_iff.mp hparse
    have hfields := p.splitFields_line
    rw [hline, splitFields_headerLine hwf hblanks] at hfields
    simp only [List.cons.injEq] at hfields
    obtain ⟨-, -, -, -, hrest⟩ := hfields
    obtain ⟨heq, hcolon⟩ := splitFields_spec hrest.symm
    have hplain : ':' ∉ p.rest := by
      rw [heq]
      simpa [List.intercalate] using hcolon
    have hbrief : h.brief.toList = ' ' :: p.message.toList ++ [' '] := by
      have hjoined : p.rest = h.brief.toList ++ h.diagnosticType.toList := by
        simpa [List.intercalate] using heq
      have hsuffix : h.diagnosticType.toList = '[' :: (p.check.toList ++ [']']) := by
        simp [htype]
      rw [hsuffix, PrintedHeader.rest] at hjoined
      exact (List.append_cancel_right hjoined).symm
    have hbracket := hwf.brief_bracket
    rw [hbrief] at hbracket
    simp only [PrintedHeader.rest, List.mem_append, List.mem_cons, not_or] at hplain hbracket
    exact ⟨hplain.1.1.2, hbracket.1.2, hplain.2.2.1⟩
  · rintro ⟨hcolon, hbracket, hcheck⟩
    refine ⟨p.expected, ?_, rfl, rfl, rfl, rfl, rfl, " ", " ", by decide, by decide, rfl⟩
    rw [parseDiagnosticHeader_eq_some_iff]
    refine ⟨⟨p.file_plain.1, p.row_digits, p.col_digits, p.severity_supported, ?_, ?_, ?_, ?_, ?_⟩,
      " ", by decide, p.line_eq⟩
    · simpa [PrintedHeader.expected] using hcolon
    · simpa [PrintedHeader.expected] using hbracket
    · simpa [PrintedHeader.expected] using hcheck
    · exact ⟨p.check.toList, by simp [PrintedHeader.expected]⟩
    · simp [PrintedHeader.expected]
      omega

/-- `a.cpp:1:2: warning: std::y is deprecated [x-y]`. -/
def qualifiedMessage : PrintedHeader where
  file := "a.cpp"
  row := "1"
  col := "2"
  severity := "warning"
  message := "std::y is deprecated"
  check := "x-y"
  file_nonempty := by decide
  file_plain := by decide
  row_nonempty := by decide
  row_digits := List.all_eq_true.mp rfl
  col_nonempty := by decide
  col_digits := List.all_eq_true.mp rfl
  severity_supported := by decide
  message_oneLine := by decide
  check_nonempty := by decide
  check_plain := by decide

/-- A message that names something of `std` makes the line a detail. -/
theorem qualifiedMessage_not_recognised : ¬ qualifiedMessage.Recognised := by
  rintro ⟨h, hparse, -⟩
  have hnone : parseDiagnosticHeader qualifiedMessage.line = none := by decide
  rw [hnone] at hparse
  cases hparse

/-! ## Rows and columns as numbers -/

/-- The string is a decimal numeral whose value is an `int`, and `std::stoi`
returns that value. -/
def Converts (str : String) : Prop :=
  str ≠ "" ∧ (∀ c ∈ str.toList, c.isDigit = true) ∧ decimalValue str.toList < 2 ^ 31 ∧
    stoi str = .ok (decimalValue str.toList)

/-- The conversions of `make_review_comment` succeed on every diagnostic of
the output, and its visit to one never throws. -/
def ReviewConverts (stdOut : String) : Prop :=
  ∀ d ∈ parseStdout stdOut, Converts d.header.rowIdx ∧ Converts d.header.colIdx ∧
    ∀ file patch comments, ∃ comments', visitDiagnostic file patch comments d = .ok comments'

/-- A row or column written with at least one digit and below 2^31. -/
def InRange (str : String) : Prop := str ≠ "" ∧ decimalValue str.toList ≤ 2147483647

/-- Digits convert exactly when they are in range. -/
theorem converts_iff {str : String} (hdigits : ∀ c ∈ str.toList, c.isDigit = true) :
    Converts str ↔ InRange str := by
  unfold Converts InRange
  rw [stoi_of_digits hdigits]
  constructor
  · rintro ⟨hne, -, hlt, -⟩
    exact ⟨hne, by omega⟩
  · rintro ⟨hne, hle⟩
    have hlt : decimalValue str.toList < 2 ^ 31 := by omega
    exact ⟨hne, hdigits, hlt, by rw [if_neg hne, if_pos hlt]⟩

/-- The headers of the diagnostics are those of the lines, in order. -/
theorem map_header_parseStdout (stdOut : String) :
    (parseStdout stdOut).map Diagnostic.header =
      (outputLines stdOut).filterMap parseDiagnosticHeader := by
  obtain ⟨before, groups, hseg⟩ := exists_segmentation parseDiagnosticHeader (outputLines stdOut)
  rw [parseStdout_of_segmentation hseg, hseg.filterMap_eq, List.map_map]
  rfl

theorem mem_headers_iff {stdOut : String} {h : DiagnosticHeader} :
    (∃ d ∈ parseStdout stdOut, d.header = h) ↔
      ∃ line ∈ outputLines stdOut, parseDiagnosticHeader line = some h := by
  rw [← List.mem_map, map_header_parseStdout, List.mem_filterMap]

theorem visitDiagnostic_ok {d : Diagnostic} (hrow : Converts d.header.rowIdx)
    (hcol : Converts d.header.colIdx) (file : String) (patch : Patch)
    (comments : List ReviewComment) :
    ∃ comments', visitDiagnostic file patch comments d = .ok comments' := by
  obtain ⟨-, -, -, hrow⟩ := hrow
  obtain ⟨-, -, -, hcol⟩ := hcol
  rw [visitDiagnostic_eq, diagnosticComments, hrow, hcol]
  exact ⟨_, rfl⟩

/-- No diagnostic of an output makes the review throw exactly when every
header line of the output has a row and a column of at least one digit and
of at most 2147483647. -/
theorem reviewConverts_iff (stdOut : String) :
    ReviewConverts stdOut ↔
      ∀ (h : DiagnosticHeader) (blanks : String), h.WellFormed → Blank blanks →
        headerLine h blanks ∈ outputLines stdOut → InRange h.rowIdx ∧ InRange h.colIdx := by
  constructor
  · intro hconv h blanks hwf hblanks hline
    have hparse := parseDiagnosticHeader_eq_some_iff.mpr ⟨hwf, blanks, hblanks, rfl⟩
    obtain ⟨d, hd, rfl⟩ := mem_headers_iff.mpr ⟨_, hline, hparse⟩
    obtain ⟨hrow, hcol, -⟩ := hconv d hd
    exact ⟨(converts_iff hwf.rowIdx_digits).mp hrow, (converts_iff hwf.colIdx_digits).mp hcol⟩
  · intro hlines d hd
    obtain ⟨line, hline, hparse⟩ := mem_headers_iff.mp ⟨d, hd, rfl⟩
    obtain ⟨hwf, blanks, hblanks, rfl⟩ := parseDiagnosticHeader_eq_some_iff.mp hparse
    obtain ⟨hrow, hcol⟩ := hlines d.header blanks hwf hblanks hline
    have hrow' := (converts_iff hwf.rowIdx_digits).mpr hrow
    have hcol' := (converts_iff hwf.colIdx_digits).mpr hcol
    exact ⟨hrow', hcol', visitDiagnostic_ok hrow' hcol'⟩

/-- A row without a digit is accepted, and `std::stoi` throws on it. -/
theorem not_reviewConverts_emptyRow : ¬ ReviewConverts "a.cpp::2: error: x [y]\n" := by
  intro hconv
  have hparse : parseStdout "a.cpp::2: error: x [y]\n" =
      [⟨⟨"a.cpp", "", "2", "error", " x ", "[y]"⟩, ""⟩] := by decide
  obtain ⟨hrow, -⟩ := hconv ⟨⟨"a.cpp", "", "2", "error", " x ", "[y]"⟩, ""⟩ (by simp [hparse])
  exact hrow.1 rfl

end CppLint.ClangTidy
