import FormulaLint.Lint.Linter
import FormulaLint.Proofs.Batches
import Mathlib.Control.Monad.Basic

/-!
# Linting the files of a directory

Each file of a directory is linted by itself, and what is reported about all of them is what is
reported about each, one after the other in the order of their paths.  A file that cannot be opened
and a text that is not YAML are reported by one error and do not keep the others from being linted.
Three things do: bytes that are no text, a YAML value that does not exist, and a formula with a number
that is too long.

Main results:

- Theorem {lit}`Linter.exists_lintFile_iff`: the files that can be reported on.
- Theorem {lit}`Linter.lintAll_eq_ok_iff`: what is reported about a directory.
- Theorem {lit}`Linter.lintAll_reports`: linting a directory, file by file.
-/

namespace FormulaLint

/-- A task succeeds in the same way whatever becomes of its errors. -/
theorem mapError_eq_ok_iff {ε ε' α : Type} {f : ε → ε'} {x : Except ε α} {a : α} :
    x.mapError f = .ok a ↔ x = .ok a := by
  cases x <;> simp [Except.mapError]

variable {linter : Linter} {wording : Yaml.Wording} {tree : FileTree} {path directory : PathName}
  {bytes : List UInt8} {text : String}

/-! ## Reading one document -/

/-- Only a malformed text is a fault of the document. -/
theorem DocumentError.ofReadError_of_ne {error : Yaml.ReadError} (h : error ≠ .malformed)
    (name fault : String) : ofReadError name fault error = value error := by
  cases error with
  | malformed => exact absurd rfl h
  | _ => rfl

/-- A file that cannot be opened holds no document. -/
theorem loadDocument_of_unreadable (wording : Yaml.Wording) {error : FileError}
    (h : tree.read path = .error error) :
    loadDocument wording tree path = .error (.unreadable path error) := by
  unfold loadDocument
  rw [h]
  rfl

/-- Bytes that are no text hold no document. -/
theorem loadDocument_of_notText (wording : Yaml.Wording) (hread : tree.read path = .ok bytes)
    (htext : fileText? bytes = none) : loadDocument wording tree path = .error .notText := by
  unfold loadDocument
  rw [hread]
  simp only [Except.mapError, bind, Except.bind, htext]

/-- The document of a file is the one that its text holds. -/
theorem loadDocument_of_text (wording : Yaml.Wording) (hread : tree.read path = .ok bytes)
    (htext : fileText? bytes = some text) :
    loadDocument wording tree path = (scanDocument text path.name).mapError
      (.ofReadError path.name (wording.ofText text)) := by
  unfold loadDocument
  rw [hread]
  simp only [Except.mapError, bind, Except.bind, htext, readDocument]

/-- A file whose text is not YAML holds no document, and its fault is told in the words of the
reader. -/
theorem loadDocument_of_malformed (wording : Yaml.Wording) (hread : tree.read path = .ok bytes)
    (htext : fileText? bytes = some text)
    (hscan : scanDocument text path.name = .error .malformed) :
    loadDocument wording tree path = .error (.malformed path.name (wording.ofText text)) := by
  rw [loadDocument_of_text wording hread htext, hscan]
  rfl

/-- A file whose text is YAML holds the document that is found in the text. -/
theorem loadDocument_of_scan (wording : Yaml.Wording) {document : ScannedDocument}
    (hread : tree.read path = .ok bytes) (htext : fileText? bytes = some text)
    (hscan : scanDocument text path.name = .ok document) :
    loadDocument wording tree path = .ok document := by
  rw [loadDocument_of_text wording hread htext, hscan]
  rfl

namespace Linter

/-! ## Linting one file -/

/-- Whether a file can be reported on: it cannot be opened, or its text is not YAML, or all formulas of
its document can be analysed. -/
inductive Reportable (linter : Linter) (tree : FileTree) (path : PathName) : Prop
  | unreadable {error : FileError} (hread : tree.read path = .error error)
  | malformed {bytes : List UInt8} {text : String} (hread : tree.read path = .ok bytes)
      (htext : fileText? bytes = some text)
      (hscan : scanDocument text path.name = .error .malformed)
  | analysed {bytes : List UInt8} {text : String} {document : ScannedDocument}
      (hread : tree.read path = .ok bytes) (htext : fileText? bytes = some text)
      (hscan : scanDocument text path.name = .ok document)
      (hformulas : ∀ request ∈ document.formulas,
        ∃ a, analyze (linter.config.setting document.symbols) request = .ok a)

/-- A file can be reported on when none of its formulas has more characters than a number may have
digits. -/
theorem Reportable.of_length_le {document : ScannedDocument} (hread : tree.read path = .ok bytes)
    (htext : fileText? bytes = some text) (hscan : scanDocument text path.name = .ok document)
    (hlength : ∀ request ∈ document.formulas, request.text.toList.length ≤ maxWholeDigits) :
    linter.Reportable tree path :=
  .analysed hread htext hscan fun request hrequest => exists_analysis (hlength request hrequest)

/-- A file whose bytes are no text cannot be reported on. -/
theorem Reportable.exists_text (h : linter.Reportable tree path)
    (hread : tree.read path = .ok bytes) : ∃ text, fileText? bytes = some text := by
  cases h with
  | unreadable hread' => simp [hread] at hread'
  | malformed hread' htext | analysed hread' htext =>
      obtain rfl := Except.ok.inj (hread.symm.trans hread')
      exact ⟨_, htext⟩

/-- Where there is no document there is nothing to analyse. -/
theorem analyzeFile_of_error {error : DocumentError}
    (hload : loadDocument wording tree path = .error error) :
    linter.analyzeFile wording tree path = .error (.document error) := by
  unfold analyzeFile
  rw [hload]
  rfl

/-- A document with a fault of its own is reported by one error. -/
theorem lintFile_of_message {error : DocumentError} {message : String}
    (hload : loadDocument wording tree path = .error error)
    (hmessage : error.message? = some message) :
    linter.lintFile wording tree path = .ok ⟨[path.text ++ ": " ++ message], []⟩ := by
  unfold lintFile
  rw [analyzeFile_of_error hload]
  simp only [LintError.documentMessage?, hmessage]

/-- A document that cannot be used, for no fault of its own, is not reported on. -/
theorem lintFile_of_no_message {error : DocumentError}
    (hload : loadDocument wording tree path = .error error) (hmessage : error.message? = none) :
    linter.lintFile wording tree path = .error (.document error) := by
  unfold lintFile
  rw [analyzeFile_of_error hload]
  simp only [LintError.documentMessage?, hmessage]

/-- A document is reported on exactly when all its formulas can be analysed. -/
theorem exists_lintFile_of_document {document : ScannedDocument}
    (hworkers : ∀ n ∈ linter.workers, 0 < n)
    (hload : loadDocument wording tree path = .ok document) :
    (∃ report, linter.lintFile wording tree path = .ok report) ↔ ∀ request ∈ document.formulas,
      ∃ a, analyze (linter.config.setting document.symbols) request = .ok a := by
  rw [← exists_analyzeBatch_iff hworkers]
  unfold lintFile analyzeFile
  rw [hload]
  simp only [Except.mapError, bind, Except.bind]
  cases analyzeBatch (linter.config.setting document.symbols) linter.workers document.formulas with
  | ok analyses => simp
  | error error => simp [LintError.documentMessage?]

/-- The files that can be reported on. -/
theorem exists_lintFile_iff (wording : Yaml.Wording) (hworkers : ∀ n ∈ linter.workers, 0 < n) :
    (∃ report, linter.lintFile wording tree path = .ok report) ↔ linter.Reportable tree path := by
  constructor
  · intro hreport
    cases hread : tree.read path with
    | error error => exact .unreadable hread
    | ok bytes =>
        cases htext : fileText? bytes with
        | none =>
            rw [lintFile_of_no_message (loadDocument_of_notText wording hread htext) rfl] at hreport
            simp at hreport
        | some text =>
            cases hscan : scanDocument text path.name with
            | error error =>
                by_cases hmalformed : error = .malformed
                · exact .malformed hread htext (hmalformed ▸ hscan)
                · have hload := loadDocument_of_text wording hread htext
                  rw [hscan, Except.mapError, DocumentError.ofReadError_of_ne hmalformed] at hload
                  rw [lintFile_of_no_message hload rfl] at hreport
                  simp at hreport
            | ok document =>
                have hload := loadDocument_of_scan wording hread htext hscan
                exact .analysed hread htext hscan
                  ((exists_lintFile_of_document hworkers hload).mp hreport)
  · rintro (hread | ⟨hread, htext, hscan⟩ | ⟨hread, htext, hscan, hformulas⟩)
    · exact ⟨_, lintFile_of_message (loadDocument_of_unreadable wording hread) rfl⟩
    · exact ⟨_, lintFile_of_message (loadDocument_of_malformed wording hread htext hscan) rfl⟩
    · have hload := loadDocument_of_scan wording hread htext hscan
      exact (exists_lintFile_of_document hworkers hload).mpr hformulas

/-! ## Linting a directory -/

/-- What is reported about a directory: what is reported about each of its files. -/
theorem lintAll_eq_ok_iff {paths : List PathName} {totals : LintTotals}
    (hfiles : linter.files tree directory = .ok paths) :
    linter.lintAll wording tree directory = .ok totals ↔
      ∃ reports, List.Forall₂ (fun path report => linter.lintFile wording tree path = .ok report)
        paths reports ∧ totals = ⟨paths.length, .join reports⟩ := by
  have heach : ∀ reports, List.Forall₂
      (fun path report => linter.lintFile wording tree path = .ok report) paths reports ↔
        (paths.mapM fun path => (linter.lintFile wording tree path).mapError LintFault.file) =
          .ok reports := by
    intro reports
    simp only [mapM_eq_ok_iff, mapError_eq_ok_iff]
  simp only [heach]
  unfold lintAll
  rw [hfiles]
  change (do
    let reports ← paths.mapM fun path => (linter.lintFile wording tree path).mapError LintFault.file
    pure (⟨paths.length, .join reports⟩ : LintTotals)) = .ok totals ↔ _
  cases paths.mapM fun path => (linter.lintFile wording tree path).mapError LintFault.file with
  | error fault => simp [bind, Except.bind]
  | ok reports => simp [bind, Except.bind, pure, Except.pure, eq_comm]

/-- A directory is reported on exactly when each of its files can be. -/
theorem exists_lintAll_iff {paths : List PathName} (hworkers : ∀ n ∈ linter.workers, 0 < n)
    (hfiles : linter.files tree directory = .ok paths) :
    (∃ totals, linter.lintAll wording tree directory = .ok totals) ↔
      ∀ path ∈ paths, linter.Reportable tree path := by
  simp only [lintAll_eq_ok_iff hfiles, ← exists_lintFile_iff wording hworkers, ← exists_mapM_iff,
    mapM_eq_ok_iff]
  exact ⟨fun ⟨_, reports, hreports, _⟩ => ⟨reports, hreports⟩,
    fun ⟨reports, hreports⟩ => ⟨_, reports, hreports, rfl⟩⟩

/-- The matching files of a directory in order, without the configuration. -/
theorem files_eq {found : List PathName}
    (hfound : tree.glob directory linter.config.pattern = .ok found) :
    linter.files tree directory =
      .ok ((found.filter fun path => path.name ≠ configName).mergeSort PathName.before) := by
  unfold files
  rw [hfound]
  rfl

/-- A directory is reported on exactly when each matching file can be, the configuration apart. -/
theorem exists_lintAll_of_glob {found : List PathName} (hworkers : ∀ n ∈ linter.workers, 0 < n)
    (hfound : tree.glob directory linter.config.pattern = .ok found) :
    (∃ totals, linter.lintAll wording tree directory = .ok totals) ↔
      ∀ path ∈ found, path.name ≠ configName → linter.Reportable tree path := by
  rw [exists_lintAll_iff hworkers (files_eq hfound)]
  simp [List.mem_mergeSort, List.mem_filter]

/-- Linting a directory, file by file.  There is a result exactly when each file can be reported on;
then each matching file other than the configuration was counted, and the errors and warnings are
those of each file alone, in the order of the paths.  A file that cannot be opened and a file that is
not YAML have one error of their own, the latter in the words of the reader. -/
theorem lintAll_reports {found : List PathName} (hworkers : ∀ n ∈ linter.workers, 0 < n)
    (hfound : tree.glob directory linter.config.pattern = .ok found) :
    ((∃ totals, linter.lintAll wording tree directory = .ok totals) ↔
      ∀ path ∈ found, path.name ≠ configName → linter.Reportable tree path) ∧
    (∀ totals, linter.lintAll wording tree directory = .ok totals →
      totals.checked = (found.filter fun path => path.name ≠ configName).length ∧
      ∃ paths reports, paths.Perm (found.filter fun path => path.name ≠ configName) ∧
        (paths.Pairwise fun a b => a.before b = true) ∧
        List.Forall₂ (fun path report => linter.lintFile wording tree path = .ok report) paths
          reports ∧
        totals.findings = ⟨reports.flatMap (·.errors), reports.flatMap (·.warnings)⟩) ∧
    ∀ path : PathName,
      (∀ error, tree.read path = .error error → linter.lintFile wording tree path =
        .ok ⟨[path.text ++ ": " ++ (path.name ++ ": Error reading file - " ++ error.message path)],
          []⟩) ∧
      ∀ bytes text, tree.read path = .ok bytes → fileText? bytes = some text →
        scanDocument text path.name = .error .malformed → linter.lintFile wording tree path =
          .ok ⟨[path.text ++ ": " ++ (path.name ++ ": Invalid YAML syntax - " ++
            wording.ofText text)], []⟩ := by
  refine ⟨exists_lintAll_of_glob hworkers hfound, fun totals htotals => ?_,
    fun path => ⟨fun error hread => ?_, ?_⟩⟩
  · rcases (lintAll_eq_ok_iff (files_eq hfound)).mp htotals with ⟨reports, hreports, rfl⟩
    exact ⟨List.length_mergeSort _, _, reports, List.mergeSort_perm _ _,
      List.pairwise_mergeSort PathName.before_trans PathName.before_total _, hreports, rfl⟩
  · exact lintFile_of_message (loadDocument_of_unreadable wording hread) rfl
  · intro bytes text hread htext hscan
    exact lintFile_of_message (loadDocument_of_malformed wording hread htext hscan) rfl

end Linter

/-! ## A directory with broken files -/

/-- The current directory with an entry, a document, a file that is not YAML and a configuration. -/
def treeWith (entry : FileEntry) : FileTree :=
  let named := [("a.yaml", entry), ("b.yaml", .file "X: =1 +".toUTF8.data.toList),
    ("c.yaml", .file "X: [".toUTF8.data.toList), (configName, .file [])]
  named.foldl (fun tree file => tree.insert ["work", file.1] file.2) (.empty ["work"])

/-- The path name of an entry in the current directory. -/
def entryPath (name : String) : PathName :=
  ⟨.current, [name]⟩

/-- The paths that the usual pattern selects there. -/
def entryPaths : List PathName :=
  ["a.yaml", "b.yaml", "c.yaml", configName].map entryPath

/-- The document with its one formula. -/
def oneFormula : ScannedDocument :=
  ⟨"b.yaml", [], [⟨⟨"b.yaml", "", "X"⟩, "1 +", ⟨1, 5, 0⟩, {}⟩]⟩

/-- The document can be reported on. -/
theorem reportable_oneFormula (entry : FileEntry)
    (hread : (treeWith entry).read (entryPath "b.yaml") = .ok "X: =1 +".toUTF8.data.toList) :
    ({} : Linter).Reportable (treeWith entry) (entryPath "b.yaml") := by
  have htext : fileText? "X: =1 +".toUTF8.data.toList = some "X: =1 +" := by decide +kernel
  have hscan : scanDocument "X: =1 +" (entryPath "b.yaml").name = .ok oneFormula := by
    decide +kernel
  exact .of_length_le hread htext hscan (by decide)

/-- The file that is not YAML can be reported on. -/
theorem reportable_malformed (entry : FileEntry)
    (hread : (treeWith entry).read (entryPath "c.yaml") = .ok "X: [".toUTF8.data.toList) :
    ({} : Linter).Reportable (treeWith entry) (entryPath "c.yaml") := by
  have htext : fileText? "X: [".toUTF8.data.toList = some "X: [" := by decide +kernel
  have hscan : scanDocument "X: [" (entryPath "c.yaml").name = .error .malformed := by
    decide +kernel
  exact .malformed hread htext hscan

/-- What a reader says there about the file that is not YAML: its bracket is not closed. -/
def unclosedWording : Yaml.Wording where
  ofText _ :=
    "while parsing a flow node\nexpected the node content, but found '<stream end>'\n" ++
      "  in \"<unicode string>\", line 1, column 5:\n    X: [\n        ^"
  ofFile name _ :=
    "while parsing a flow node\nexpected the node content, but found '<stream end>'\n" ++
      "  in \"" ++ name ++ "\", line 1, column 5"

/-- A directory in place of a file and a file that is not YAML do not keep the other file from being
linted. -/
theorem treeWith_directory_reported : ∃ totals,
    ({} : Linter).lintAll unclosedWording (treeWith .directory) {} = .ok totals ∧
      totals.checked = 3 := by
  have hworkers : ∀ n ∈ ({} : Linter).workers, 0 < n := by simp
  have hfound : (treeWith .directory).glob {} "*.yaml" = .ok entryPaths := by decide +kernel
  have hdirectory : (treeWith .directory).read (entryPath "a.yaml") = .error .isDirectory := by
    decide +kernel
  rcases Linter.lintAll_reports hworkers hfound with ⟨hreported, htotals, -⟩
  have heach : ∀ path ∈ entryPaths, path.name ≠ configName →
      ({} : Linter).Reportable (treeWith .directory) path := by
    intro path hpath hname
    simp only [entryPaths, List.map_cons, List.map_nil, List.mem_cons, List.not_mem_nil,
      or_false] at hpath
    rcases hpath with rfl | rfl | rfl | rfl
    · exact .unreadable hdirectory
    · exact reportable_oneFormula _ (by decide +kernel)
    · exact reportable_malformed _ (by decide +kernel)
    · exact absurd rfl hname
  rcases hreported.mpr heach with ⟨totals, hlint⟩
  exact ⟨totals, hlint, (htotals totals hlint).1⟩

/-- One file whose bytes are no text stops the whole directory. -/
theorem treeWith_undecodable_stops :
    (treeWith (.file [0xff])).glob {} "*.yaml" = .ok entryPaths ∧
      ¬ ∃ totals,
        ({} : Linter).lintAll unclosedWording (treeWith (.file [0xff])) {} = .ok totals := by
  have hworkers : ∀ n ∈ ({} : Linter).workers, 0 < n := by simp
  have hfound : (treeWith (.file [0xff])).glob {} "*.yaml" = .ok entryPaths := by decide +kernel
  have hread : (treeWith (.file [0xff])).read (entryPath "a.yaml") = .ok [0xff] := by
    decide +kernel
  have hnone : fileText? [0xff] = none := by decide +kernel
  refine ⟨hfound, fun hlint => ?_⟩
  have hreportable := (Linter.exists_lintAll_of_glob hworkers hfound).mp hlint
    (entryPath "a.yaml") (by decide) (by decide)
  rcases hreportable.exists_text hread with ⟨text, htext⟩
  simp [hnone] at htext

end FormulaLint
