import FormulaLint.Lint.Command
import Mathlib.Control.Monad.Basic

/-!
# Configurations that are refused

A configuration is read or refused with a message, as long as what has to be told of it can be told:
the keys of the whole and of each described field are texts, and no number that becomes a name, or that
a message shows, has too many digits to be written.  Otherwise nothing is read, and the fault may be
one of telling instead of a message.

Main results:

- Definition {lit}`ConfigReader.Settles`: a reading that succeeds only under a condition, and fails
  without a message only where the condition does not hold.
- Theorems {lit}`ConfigReader.Settles.bind`, {lit}`ConfigReader.settles_mapM` and
  {lit}`ConfigReader.settles_foldlM`: readings one after the other.
- Theorem {lit}`ConfigReader.settles_ofData`: the reading of configuration data.
- Theorem {lit}`readConfig_reports`: data that can be told give a configuration or a message, and a run
  with them ends with the exit code for usage if there is no configuration; other data never give a
  configuration.
-/

namespace FormulaLint

/-! ## What can be told -/

/-- Whether a value is a text. -/
def Atom.IsText : Atom → Prop
  | .text _ => True
  | _ => False

instance : DecidablePred Atom.IsText
  | .text _ => inferInstanceAs (Decidable True)
  | .null | .truth _ | .number _ | .bytes _ | .date _ | .moment _ => inferInstanceAs (Decidable False)

namespace Data

/-- The entries of a cell, if it is a dictionary. -/
def entries (d : Data) (id : Nat) : List (Atom × Nat) :=
  match d.cell id with
  | .dict entries => entries
  | _ => []

/-- The items of a cell, if it is a list. -/
def items (d : Data) (id : Nat) : List Nat :=
  match d.cell id with
  | .list items => items
  | _ => []

/-- The entries of the dictionary that stands under a key. -/
def entriesUnder (d : Data) (entries : List (Atom × Nat)) (key : String) : List (Atom × Nat) :=
  match under? entries key with
  | some id => d.entries id
  | none => []

/-- The fields of a data source can be told: their names can be written, and the keys of their
descriptions are texts. -/
structure TellableFields (d : Data) (id : Nat) : Prop where
  items : ∀ item ∈ d.items id, d.isOverlong item = false
  names : ∀ field ∈ d.entries id, field.1.isOverlong = false
  keys : ∀ field ∈ d.entries id, ∀ entry ∈ d.entries field.2, entry.1.IsText

instance (d : Data) (id : Nat) : Decidable (d.TellableFields id) :=
  decidable_of_iff ((∀ item ∈ d.items id, d.isOverlong item = false) ∧
      (∀ field ∈ d.entries id, field.1.isOverlong = false) ∧
      ∀ field ∈ d.entries id, ∀ entry ∈ d.entries field.2, entry.1.IsText)
    ⟨fun ⟨items, names, keys⟩ => ⟨items, names, keys⟩,
      fun fields => ⟨fields.items, fields.names, fields.keys⟩⟩

/-- A data source can be told: its name can be written, and so can its fields. -/
structure TellableSource (d : Data) (source : Atom × Nat) : Prop where
  name : source.1.isOverlong = false
  fields : ∀ id ∈ under? (d.entries source.2) "fields", d.TellableFields id

instance (d : Data) (source : Atom × Nat) : Decidable (d.TellableSource source) :=
  decidable_of_iff (source.1.isOverlong = false ∧
      ∀ id ∈ under? (d.entries source.2) "fields", d.TellableFields id)
    ⟨fun ⟨name, fields⟩ => ⟨name, fields⟩, fun told => ⟨told.name, told.fields⟩⟩

/-- A configuration with the given entries can be told: its keys are texts, and its decimal separator,
its symbols and its data sources can be written.  Only the data decide that: how deep data may be
nested before they can no longer be written, and which characters the output takes, are matters of
the environment and are left to it. -/
structure Tellable (d : Data) (entries : List (Atom × Nat)) : Prop where
  keys : ∀ entry ∈ entries, entry.1.IsText
  separator : ∀ id ∈ under? entries "decimal_separator", d.isOverlong id = false
  symbols : ∀ entry ∈ d.entriesUnder entries "symbols", entry.1.isOverlong = false
  sources : ∀ entry ∈ d.entriesUnder entries "data_sources", d.TellableSource entry

instance (d : Data) (entries : List (Atom × Nat)) : Decidable (d.Tellable entries) :=
  decidable_of_iff ((∀ entry ∈ entries, entry.1.IsText) ∧
      (∀ id ∈ under? entries "decimal_separator", d.isOverlong id = false) ∧
      (∀ entry ∈ d.entriesUnder entries "symbols", entry.1.isOverlong = false) ∧
      ∀ entry ∈ d.entriesUnder entries "data_sources", d.TellableSource entry)
    ⟨fun ⟨keys, separator, symbols, sources⟩ => ⟨keys, separator, symbols, sources⟩,
      fun told => ⟨told.keys, told.separator, told.symbols, told.sources⟩⟩

/-- A single value is shown as it is. -/
theorem isOverlong_of_atom {d : Data} {id : Nat} {a : Atom} (h : d.cell id = .atom a) :
    d.isOverlong id = a.isOverlong := by
  simp [isOverlong, shownAtomsFrom, h]

/-- The fields of a list can be told when its items can be written. -/
theorem tellableFields_of_list (d : Data) {id : Nat} {items : List Nat} (h : d.cell id = .list items) :
    (∀ item ∈ items, d.isOverlong item = false) ↔ d.TellableFields id := by
  refine ⟨fun hitems => ⟨?_, ?_, ?_⟩, fun hfields => ?_⟩
  · simpa [Data.items, h] using hitems
  · simp [Data.entries, h]
  · simp [Data.entries, h]
  · simpa [Data.items, h] using hfields.items

/-- The fields of a dictionary can be told when its keys can be written and the keys of its values
are texts. -/
theorem tellableFields_of_dict (d : Data) {id : Nat} {fields : List (Atom × Nat)}
    (h : d.cell id = .dict fields) :
    ((∀ field ∈ fields, field.1.isOverlong = false) ∧
      ∀ field ∈ fields, ∀ entry ∈ d.entries field.2, entry.1.IsText) ↔ d.TellableFields id := by
  have hentries : d.entries id = fields := by simp [Data.entries, h]
  refine ⟨fun ⟨hnames, hkeys⟩ => ⟨?_, hentries ▸ hnames, hentries ▸ hkeys⟩,
    fun hfields => ⟨hentries ▸ hfields.names, hentries ▸ hfields.keys⟩⟩
  simp [Data.items, h]

end Data

/-! ## Readings that settle a condition -/

namespace ConfigError

/-- Whether an error is reported as one of the configuration. -/
def IsReported (e : ConfigError) : Prop :=
  ∃ message, e.message? = some message

/-- Whether an error is about something that cannot be told: a key that is not a text, or a number
with too many digits. -/
def IsUntold (e : ConfigError) : Prop :=
  e = .unexpectedKeyNotText ∨ e = .value .unwritable

end ConfigError

namespace ConfigReader

/-- What comes of a reading that settles a condition: a value of the given kind where the condition
holds, a message, or something that cannot be told where the condition does not hold. -/
def Settled {α : Type} (P : Prop) (R : α → Prop) : Except ConfigError α → Prop
  | .ok a => P ∧ R a
  | .error e => e.IsReported ∨ e.IsUntold ∧ ¬ P

/-- A reading settles a condition, whatever was noticed before. -/
def Settles {α : Type} (m : ConfigReader α) (P : Prop) (R : α → Prop) : Prop :=
  ∀ notices, Settled P R (m.run.run notices).1

variable {α β : Type} {P Q : Prop} {R : α → Prop} {S : β → Prop}

/-- Readings run one after the other; the second one goes on with what was noticed by the first. -/
theorem run_bind (m : ConfigReader α) (f : α → ConfigReader β) (notices : List ConfigNotice) :
    (m >>= f).run.run notices = match m.run.run notices with
      | (.ok a, rest) => (f a).run.run rest
      | (.error e, rest) => (.error e, rest) := by
  rw [ExceptT.run_bind, StateT.run_bind]
  rcases m.run.run notices with ⟨_ | _, _⟩ <;> rfl

/-- A value at hand settles whatever holds. -/
theorem settles_pure {a : α} (hP : P) (hR : R a) : Settles (pure a) P R :=
  fun _ => ⟨hP, hR⟩

/-- A message settles everything. -/
theorem settles_fail {filename : String} {problem : ConfigProblem} :
    Settles (fail filename problem) P R :=
  fun _ => .inl ⟨_, rfl⟩

/-- What cannot be told settles that a condition does not hold. -/
theorem settles_untold {e : ConfigError} (he : e.IsUntold) (hP : ¬ P) : Settles (throw e) P R :=
  fun _ => .inr ⟨he, hP⟩

/-- Bringing something to notice always succeeds. -/
theorem settles_note {notice : ConfigNotice} : Settles (note notice) True fun _ => True :=
  fun _ => ⟨trivial, trivial⟩

namespace Settles

variable {m : ConfigReader α} {f : α → ConfigReader β}

/-- A reading settles what is equivalent. -/
theorem congr (h : Settles m P R) (hPQ : P ↔ Q) : Settles m Q R := by
  rwa [Settles, ← propext hPQ]

/-- Readings one after the other settle both conditions. -/
theorem bind (hm : Settles m P R) (hf : ∀ a, R a → Settles (f a) Q S) :
    Settles (m >>= f) (P ∧ Q) S := by
  intro notices
  have hfirst := hm notices
  rw [run_bind]
  rcases hrun : m.run.run notices with ⟨error | a, rest⟩ <;> rw [hrun] at hfirst
  · exact hfirst.imp_right fun h => ⟨h.1, fun hPQ => h.2 hPQ.1⟩
  · have hsecond := hf a hfirst.2 rest
    dsimp only
    rcases hthen : ((f a).run.run rest).1 with error | b <;> rw [hthen] at hsecond
    · exact hsecond.imp_right fun h => ⟨h.1, fun hPQ => h.2 hPQ.2⟩
    · exact ⟨⟨hfirst.1, hsecond.1⟩, hsecond.2⟩

/-- A reading behind one that settles nothing. -/
theorem bind_right (hm : Settles m True R) (hf : ∀ a, R a → Settles (f a) Q S) :
    Settles (m >>= f) Q S :=
  (hm.bind hf).congr (iff_of_eq (true_and Q))

/-- A reading before one that settles nothing. -/
theorem bind_left (hm : Settles m P R) (hf : ∀ a, R a → Settles (f a) True S) :
    Settles (m >>= f) P S :=
  (hm.bind hf).congr (iff_of_eq (and_true P))

end Settles

/-- A message before anything else settles everything. -/
theorem settles_fail_bind {filename : String} {problem : ConfigProblem} {f : α → ConfigReader β} :
    Settles (fail filename problem >>= f) P S :=
  Settles.bind_right (R := fun _ => False) settles_fail fun _ h => h.elim

/-- Items that are read one after the other settle the conditions of all of them. -/
theorem settles_mapM {f : α → ConfigReader β} {T : α → Prop} {as : List α}
    (h : ∀ a ∈ as, Settles (f a) (T a) fun _ => True) :
    Settles (as.mapM f) (∀ a ∈ as, T a) fun _ => True := by
  induction as with
  | nil => exact settles_pure (by simp) trivial
  | cons a as ih =>
      rw [List.mapM_cons, List.forall_mem_cons]
      refine (h a (by simp)).bind fun b _ => ?_
      exact (ih fun a' ha' => h a' (by simp [ha'])).bind_left fun bs _ => settles_pure trivial trivial

/-- Items that are taken up one after the other settle the conditions of all of them. -/
theorem settles_foldlM {f : β → α → ConfigReader β} {T : α → Prop} {as : List α}
    (h : ∀ b, ∀ a ∈ as, Settles (f b a) (T a) fun _ => True) (b : β) :
    Settles (as.foldlM f b) (∀ a ∈ as, T a) fun _ => True := by
  induction as generalizing b with
  | nil => exact settles_pure (by simp) trivial
  | cons a as ih =>
      rw [List.foldlM_cons, List.forall_mem_cons]
      exact (h b a (by simp)).bind fun b' _ => ih (fun b a' ha' => h b a' (by simp [ha'])) b'

/-- Items that are checked one after the other settle nothing if none of them does. -/
theorem settles_forM {f : α → ConfigReader Unit} {as : List α}
    (h : ∀ a ∈ as, Settles (f a) True fun _ => True) :
    Settles (as.forM f) True fun _ => True := by
  induction as with
  | nil => exact settles_pure trivial trivial
  | cons a as ih =>
      change Settles (f a >>= fun _ => as.forM f) True _
      exact (h a (by simp)).bind_right fun _ _ => ih fun a' ha' => h a' (by simp [ha'])

/-! ## The parts of a configuration -/

variable {filename source field : String} {d : Data}

/-- A key can be written, or its name is not told. -/
theorem settles_keyText {key : Atom} :
    Settles (keyText key) (key.isOverlong = false) fun _ => True := by
  unfold keyText
  cases h : key.isOverlong with
  | true => exact settles_untold (.inr rfl) (by simp)
  | false => exact settles_pure rfl trivial

/-- A cell can be written, or its text is not told. -/
theorem settles_plainText {id : Nat} :
    Settles (plainText d id) (d.isOverlong id = false) fun _ => True := by
  unfold plainText
  cases h : d.isOverlong id with
  | true => exact settles_untold (.inr rfl) (by simp)
  | false => exact settles_pure rfl trivial

/-- Unexpected keys are told when all keys are texts. -/
theorem settles_unexpected {entries : List (Atom × Nat)} {expected : List String} :
    Settles (unexpected entries expected) (∀ entry ∈ entries, entry.1.IsText) fun _ => True := by
  have hkeys : Settles ((entries.map (·.1)).mapM fun key =>
      match key with
      | .text name => pure name
      | _ => throw .unexpectedKeyNotText) (∀ key ∈ entries.map (·.1), key.IsText)
        fun _ => True := by
    refine settles_mapM fun key _ => ?_
    cases key with
    | text name => exact settles_pure trivial trivial
    | _ => exact settles_untold (.inl rfl) (by simp [Atom.IsText])
  rw [List.forall_mem_map] at hkeys
  exact hkeys.bind_left fun names _ => settles_pure trivial trivial

/-- The flags of a field are checked with a message. -/
theorem settles_checkFlags {entries : List (Atom × Nat)} :
    Settles (checkFlags filename source field d entries) True fun _ => True := by
  refine settles_forM fun flag _ => ?_
  split
  · split
    · exact settles_pure trivial trivial
    · exact settles_fail
  · exact settles_pure trivial trivial

/-- The functions of a field are read, or there is a message. -/
theorem settles_functions {entries : List (Atom × Nat)} :
    Settles (functions filename source field d entries) True fun _ => True := by
  unfold functions
  split
  · exact settles_pure trivial trivial
  · split
    · refine (settles_mapM fun item _ => ?_).congr (by simp : (∀ item ∈ _, True) ↔ True)
      split
      · exact settles_pure trivial trivial
      · exact settles_fail
    · exact settles_fail

/-- What is read as a dictionary has its entries. -/
theorem entries_of_dict? {id : Nat} {entries : List (Atom × Nat)} (h : dict? d id = some entries) :
    d.entries id = entries := by
  unfold dict? at h
  unfold Data.entries
  split at h <;> simp_all

/-- What counts as absent has no entries. -/
theorem entries_of_isVoid {id : Nat} (h : isVoid d id) : d.entries id = [] := by
  unfold isVoid at h
  unfold Data.entries
  split at h <;> simp_all

/-- The description of a field is read when its keys are texts. -/
theorem settles_capability {id : Nat} :
    Settles (capability filename source field d id) (∀ entry ∈ d.entries id, entry.1.IsText)
      fun _ => True := by
  unfold capability
  split
  next hnull =>
    have hcell : d.cell id = .atom .null := by simpa [isNull] using hnull
    exact settles_pure (by simp [Data.entries, hcell]) trivial
  next =>
    split
    next => exact settles_fail
    next entries hdict =>
      have hentries : d.entries id = entries := entries_of_dict? hdict
      rw [hentries]
      refine settles_checkFlags.bind_right fun _ _ => settles_functions.bind_right fun names _ => ?_
      refine settles_unexpected.bind_left fun others _ => ?_
      split
      · exact settles_pure trivial trivial
      · exact settles_note.bind_right fun _ _ => settles_pure trivial trivial

/-- A data source is taken up when it can be told. -/
theorem settles_dataSource {sources : Sources} {entry : Atom × Nat} :
    Settles (dataSource filename d sources entry) (d.TellableSource entry) fun _ => True := by
  have hsource : Settles (dataSource filename d sources entry)
      (entry.1.isOverlong = false ∧
        ∀ id ∈ Data.under? (d.entries entry.2) "fields", d.TellableFields id) fun _ => True := by
    unfold dataSource
    refine settles_keyText.bind fun source _ => ?_
    extract_lets takeUp
    have hfields : Settles (takeUp (d.entries entry.2))
        (∀ id ∈ Data.under? (d.entries entry.2) "fields", d.TellableFields id) fun _ => True := by
      unfold takeUp
      rcases Data.under? (d.entries entry.2) "fields" with _ | id
      · exact settles_pure (by simp) trivial
      · simp only [Option.mem_def, Option.some.injEq, forall_eq', Option.map_some]
        split
        next h => cases h
        next items h =>
          refine ((settles_mapM fun item _ => settles_plainText).bind_left fun names _ =>
            settles_pure trivial trivial).congr ?_
          exact d.tellableFields_of_list (Option.some.inj h)
        next entries h =>
          refine ((settles_mapM fun field _ => settles_keyText).bind fun names _ => ?_ :
            Settles _ (_ ∧ ∀ field ∈ entries, ∀ entry ∈ d.entries field.2, entry.1.IsText) _).congr ?_
          · refine (settles_mapM fun field _ => ?_).bind_left fun capabilities _ =>
              settles_pure trivial trivial
            exact settles_capability.bind_left fun found _ => settles_pure trivial trivial
          · exact d.tellableFields_of_dict (Option.some.inj h)
        next => exact settles_fail
    split
    next hnull =>
      have hcell : d.cell entry.2 = .atom .null := by simpa [isNull] using hnull
      have hentries : d.entries entry.2 = [] := by simp [Data.entries, hcell]
      rw [pure_bind]
      rwa [hentries] at hfields ⊢
    next =>
      split
      next options hdict =>
        rw [pure_bind]
        rwa [entries_of_dict? hdict] at hfields ⊢
      next => exact settles_fail_bind
  exact hsource.congr ⟨fun h => ⟨h.1, h.2⟩, fun h => ⟨h.1, h.2⟩⟩

/-- A symbol is declared when its name can be written, or there is a message. -/
theorem settles_symbol {symbols : OrderedMap String ReferenceKind} {entry : Atom × Nat} :
    Settles (symbol filename d symbols entry) (entry.1.isOverlong = false) fun _ => True := by
  refine settles_keyText.bind_left fun name _ => ?_
  split
  · exact settles_fail
  · split
    · exact settles_pure trivial trivial
    · exact settles_fail

/-- Symbols are declared one after the other. -/
theorem settles_symbols {entries : List (Atom × Nat)} {symbols : OrderedMap String ReferenceKind} :
    Settles (entries.foldlM (symbol filename d) symbols)
      (∀ entry ∈ entries, entry.1.isOverlong = false) fun _ => True :=
  settles_foldlM (T := fun entry : Atom × Nat => entry.1.isOverlong = false)
    (fun _ _ _ => settles_symbol) symbols

/-- Data sources are taken up one after the other. -/
theorem settles_dataSources {entries : List (Atom × Nat)} {sources : Sources} :
    Settles (entries.foldlM (dataSource filename d) sources)
      (∀ entry ∈ entries, d.TellableSource entry) fun _ => True :=
  settles_foldlM (T := d.TellableSource) (fun _ _ _ => settles_dataSource) sources

/-- A section has the entries under its key, or there is a message. -/
theorem settles_section {entries : List (Atom × Nat)} {key : String} {problem : ConfigProblem} :
    Settles (section? filename d entries key problem) True (· = d.entriesUnder entries key) := by
  unfold section? Data.entriesUnder
  rcases Data.under? entries key with _ | id
  · exact settles_pure trivial rfl
  · dsimp only
    split
    next hvoid => exact settles_pure trivial (entries_of_isVoid hvoid).symm
    next =>
      split
      next found hdict => exact settles_pure trivial (entries_of_dict? hdict).symm
      next => exact settles_fail

/-- A locale tag is read, or there is a message. -/
theorem settles_localeTag {entries : List (Atom × Nat)} :
    Settles (localeTag filename d entries) True fun _ => True := by
  unfold localeTag
  split
  · exact settles_pure trivial trivial
  · split
    · exact settles_pure trivial trivial
    · split
      · exact settles_pure trivial trivial
      · exact settles_fail

/-- A decimal separator is read when it can be written. -/
theorem settles_localeOverride {entries : List (Atom × Nat)} :
    Settles (localeOverride d entries)
      (∀ id ∈ Data.under? entries "decimal_separator", d.isOverlong id = false) fun _ => True := by
  unfold localeOverride
  rcases Data.under? entries "decimal_separator" with _ | id
  · exact settles_pure (by simp) trivial
  · simp only [Option.mem_def, Option.some.injEq, forall_eq']
    split
    next h => exact settles_pure (by rw [Data.isOverlong_of_atom h]; rfl) trivial
    next s h => exact settles_pure (by rw [Data.isOverlong_of_atom h]; rfl) trivial
    next =>
      cases hlong : d.isOverlong id with
      | true => exact settles_untold (.inr rfl) (by simp)
      | false => exact settles_pure rfl trivial

/-- The profile of a locale is found, or there is a message. -/
theorem settles_localeProfile {tag : Option String} {override : Option LocaleOverride} :
    Settles (localeProfile tag override) True fun _ => True := by
  unfold localeProfile
  split
  · exact fun _ => .inl ⟨_, rfl⟩
  · split
    · exact settles_note.bind_right fun _ _ => settles_pure trivial trivial
    · exact settles_pure trivial trivial

/-- The entries of a configuration are read when they can be told. -/
theorem settles_config {entries : List (Atom × Nat)} :
    Settles (config filename d entries) (d.Tellable entries) fun _ => True := by
  suffices h : Settles (config filename d entries)
      ((∀ id ∈ Data.under? entries "decimal_separator", d.isOverlong id = false) ∧
        (∀ entry ∈ d.entriesUnder entries "symbols", entry.1.isOverlong = false) ∧
        (∀ entry ∈ d.entriesUnder entries "data_sources", d.TellableSource entry) ∧
        ∀ entry ∈ entries, entry.1.IsText) fun _ => True from
    h.congr ⟨fun ⟨separator, symbols, sources, keys⟩ => ⟨keys, separator, symbols, sources⟩,
      fun ⟨keys, separator, symbols, sources⟩ => ⟨separator, symbols, sources, keys⟩⟩
  unfold config
  refine settles_localeTag.bind_right fun tag _ => settles_localeOverride.bind fun override _ =>
    settles_localeProfile.bind_right fun profile _ => ?_
  extract_lets readPattern
  have hpattern : ∀ strict, Settles (readPattern strict)
      ((∀ entry ∈ d.entriesUnder entries "symbols", entry.1.isOverlong = false) ∧
        (∀ entry ∈ d.entriesUnder entries "data_sources", d.TellableSource entry) ∧
        ∀ entry ∈ entries, entry.1.IsText) fun _ => True := by
    intro strict
    unfold readPattern
    extract_lets readTables
    have htables : ∀ pattern, Settles (readTables pattern)
        ((∀ entry ∈ d.entriesUnder entries "symbols", entry.1.isOverlong = false) ∧
          (∀ entry ∈ d.entriesUnder entries "data_sources", d.TellableSource entry) ∧
          ∀ entry ∈ entries, entry.1.IsText) fun _ => True := by
      intro pattern
      unfold readTables
      refine settles_section.bind_right fun rawSymbols hsymbols => ?_
      subst hsymbols
      refine settles_symbols.bind fun symbols _ => ?_
      refine settles_section.bind_right fun rawSources hsources => ?_
      subst hsources
      refine settles_dataSources.bind fun sources _ => ?_
      refine settles_unexpected.bind_left fun others _ => ?_
      split
      · exact settles_pure trivial trivial
      · exact settles_note.bind_right fun _ _ => settles_pure trivial trivial
    split
    · exact htables _
    · split
      · split
        · exact settles_fail_bind
        · exact htables _
      · exact settles_fail_bind
  split
  · exact hpattern _
  · split
    · exact hpattern _
    · exact settles_fail_bind

/-- Configuration data are read when they can be told. -/
theorem settles_ofData :
    Settles (ofData filename d) (d.Tellable (d.entries d.root)) fun _ => True := by
  unfold ofData
  split
  next h =>
    have hentries : d.entries d.root = [] := by simp [Data.entries, h]
    rw [hentries]
    exact settles_config
  next entries h =>
    have hentries : d.entries d.root = entries := by simp [Data.entries, h]
    rw [hentries]
    exact settles_config
  next => exact settles_fail

/-- A configuration file is read like the data that it holds. -/
theorem ofFile_eq {wording : Yaml.Wording} {tree : FileTree} {path : PathName}
    {bytes : List UInt8} {text : String}
    (hread : tree.read path = .ok bytes) (htext : fileText? bytes = some text)
    (hload : Yaml.load text.toList = .ok d) : ofFile wording tree path = ofData path.name d := by
  unfold ofFile
  rw [hread]
  dsimp only
  rw [htext]
  dsimp only
  rw [hload]

end ConfigReader

/-! ## Configurations that are read, and those that are refused -/

open ConfigReader

/-- A run whose configuration is refused with a message ends with the exit code for usage. -/
theorem runLine_of_refused {wording : Yaml.Wording} {tree : FileTree} {line : CommandLine}
    {path : PathName} {e : ConfigError} (hpath : line.configPath tree = some path)
    (hrefused : (loadConfig wording tree path).1 = .error e) (he : e.IsReported) :
    (runLine wording tree line).stop = .exit 2 := by
  obtain ⟨message, hmessage⟩ := he
  have hconfig : ((line.readConfig wording tree).run.run []).1 = .error e := by
    unfold loadConfig at hrefused
    unfold CommandLine.readConfig
    rw [hpath, run_bind]
    rcases hrun : (ofFile wording tree path).run.run [] with ⟨_ | c, notices⟩ <;>
      rw [hrun] at hrefused
    · exact hrefused
    · cases hrefused
  unfold runLine
  rcases hrun : (line.readConfig wording tree).run.run [] with ⟨_ | c, notices⟩ <;>
    rw [hrun] at hconfig
  · obtain rfl := Except.error.inj hconfig
    simp only [hmessage]
  · cases hconfig

/-- Configuration data that can be told give a configuration or an error with a message, and a run
whose configuration file holds them and gives no configuration ends with the exit code for usage.
Data that cannot be told never give a configuration; what is missing is then told by a message, or
it is the very thing that cannot be told.  Data nested too deep for the stack on which they are
written, and an output that does not take every character, are faults of the environment: no run has
them here. -/
theorem readConfig_reports (d : Data) :
    (d.Tellable (d.entries d.root) →
      (∀ filename, (∃ c, (readConfig filename d).1 = .ok c) ∨
        ∃ e, (readConfig filename d).1 = .error e ∧ e.IsReported) ∧
      ∀ (wording : Yaml.Wording) (tree : FileTree) (line : CommandLine) (path : PathName)
        (bytes : List UInt8) (text : String),
        line.configPath tree = some path → tree.read path = .ok bytes →
        fileText? bytes = some text → Yaml.load text.toList = .ok d →
        (¬ ∃ c, (readConfig path.name d).1 = .ok c) → (runLine wording tree line).stop = .exit 2) ∧
    (¬ d.Tellable (d.entries d.root) → ∀ filename,
      ∃ e, (readConfig filename d).1 = .error e ∧ (e.IsReported ∨ e.IsUntold)) := by
  have hsettled : ∀ filename, Settled (d.Tellable (d.entries d.root)) (fun _ => True)
      (readConfig filename d).1 := fun filename => settles_ofData []
  refine ⟨fun hd => ?_, fun hd filename => ?_⟩
  · have hreported : ∀ filename, (∃ c, (readConfig filename d).1 = .ok c) ∨
        ∃ e, (readConfig filename d).1 = .error e ∧ e.IsReported := by
      intro filename
      have h := hsettled filename
      rcases hread : (readConfig filename d).1 with e | c <;> rw [hread] at h
      · exact .inr ⟨e, rfl, h.resolve_right fun h => h.2 hd⟩
      · exact .inl ⟨c, rfl⟩
    refine ⟨hreported, fun wording tree line path bytes text hpath hread htext hload hnone => ?_⟩
    obtain ⟨e, he, hmessage⟩ := (hreported path.name).resolve_left hnone
    refine runLine_of_refused hpath ?_ hmessage
    rwa [loadConfig, ofFile_eq hread htext hload]
  · have h := hsettled filename
    rcases hread : (readConfig filename d).1 with e | c <;> rw [hread] at h
    · exact ⟨e, rfl, h.imp_right And.left⟩
    · exact absurd h.1 hd

/-! ## Two small configurations -/

/-- The current directory with a configuration. -/
def treeWithConfig (text : String) : FileTree :=
  (FileTree.empty ["work"]).insert ["work", configName] (.file text.toUTF8.data.toList)

/-- A configuration with a number in place of a truth value. -/
def strictByNumber : Data where
  cells := #[.dict [(.text "strict", 2)], .atom (.text "strict"), .atom (.number (.whole 1))]
  root := 0

/-- Its only key is a text, so it is refused with a message, and a run with it ends with the exit code
for usage. -/
theorem strictByNumber_refused :
    strictByNumber.Tellable (strictByNumber.entries strictByNumber.root) ∧
      (runLine .plain (treeWithConfig "strict: 1") {}).stop = .exit 2 := by
  have hd : strictByNumber.Tellable (strictByNumber.entries strictByNumber.root) := by decide
  have hproblem : (readConfig configName strictByNumber).1 = .error (.problem configName .strict) := by
    decide +kernel
  refine ⟨hd, ((readConfig_reports strictByNumber).1 hd).2 .plain (treeWithConfig "strict: 1") {}
    ⟨.root, ["work", configName]⟩ "strict: 1".toUTF8.data.toList "strict: 1"
    (by decide +kernel) (by decide +kernel) (by decide +kernel) (by decide +kernel) ?_⟩
  rintro ⟨c, hc⟩
  exact absurd (hproblem.symm.trans hc) (by simp)

/-- A configuration with a number for a key. -/
def numberedField : Data where
  cells := #[.dict [(.number (.whole 1), 2)], .atom (.number (.whole 1)), .atom (.text "x")]
  root := 0

/-- Its key cannot be told among the unexpected ones, so there is neither a configuration nor a
message, and a run with it breaks off. -/
theorem numberedField_untold :
    Yaml.load "1: x".toList = .ok numberedField ∧
      (readConfig configName numberedField).1 = .error .unexpectedKeyNotText ∧
      ConfigError.message? .unexpectedKeyNotText = none ∧
      (runLine .plain (treeWithConfig "1: x") {}).stop =
        .fault (.config .unexpectedKeyNotText) := by
  decide +kernel

end FormulaLint
