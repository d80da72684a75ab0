import NamedExpr.Proofs.Lines
import NamedExpr.Proofs.Statements
/-!
# Listings can be read back

A row of a listing is a definition (`Definition.ofText_row`): an identifier holds no `=`, and neither it nor the text of
an expression starts or ends in white space. So a session can be replayed from what it lists at its end, however it came
there (`Statement.listing_replays`).
-/

namespace NamedExpr

/-- A row is the definition of its name by its text. -/
theorem Definition.ofText_row {name source : String} (identifier : Text.isIdentifier name = true)
    (trimmed : Text.Trimmed source.toList) : Definition.ofText (name ++ " = " ++ source) = .ok ⟨name, source⟩ := by
  have whole := Text.trimmed_of_isIdentifier identifier
  have free : '=' ∉ name.toList ++ [' '] := by
    intro member
    obtain inName | space := List.mem_append.1 member
    · exact ((Text.solid_of_isIdentifierChars identifier).2 _ inName).2 rfl
    · simp at space
  have text : (name ++ " = " ++ source).toList = (name.toList ++ [' ']) ++ '=' :: ([' '] ++ source.toList) := by simp
  have blank : ∀ c ∈ [' '], Text.isBlank c = true := List.forall_mem_singleton.2 (by decide)
  rw [ofText_eq_ok_iff, text, Text.cut_append free]
  refine ⟨_, rfl, ?_, identifier, ?_⟩
  · have trim := whole.trimChars_eq (by simp : ∀ c ∈ [], Text.isBlank c = true) blank
    rw [List.nil_append] at trim
    simp only [trim, String.ofList_toList]
  · have trim := trimmed.trimChars_eq blank (by simp : ∀ c ∈ [], Text.isBlank c = true)
    rw [List.append_nil] at trim
    simp only [trim, String.ofList_toList]

namespace Context

variable {c : Context} {p : String × Expr}

theorem Entered.identifier (entered : c.Entered) (member : p ∈ c.entries.entries) : Text.isIdentifier p.1 = true :=
  (entered _ _ (Bindings.get?_eq_some_iff.2 member)).1

theorem Entered.isReadable (entered : c.Entered) (member : p ∈ c.entries.entries) : p.2.isReadable = true := by
  obtain ⟨-, text, read⟩ := entered _ _ (Bindings.get?_eq_some_iff.2 member)
  exact Expr.isReadable_of_read read

end Context

namespace Statement

/-! ## Sessions -/

/-- The context after some lines. A line that fails is passed over. -/
def contextAfter (c : Context) (lines : List String) : Context :=
  lines.foldl (fun c line =>
    match runLine c line with
    | .ok effect => effect.context
    | .error _ => c) c

/-- Lines change a context step by step. -/
theorem contextAfter_cons (c : Context) (line : String) (lines : List String) :
    ∃ next, c.Changes next ∧ contextAfter c (line :: lines) = contextAfter next lines := by
  cases ran : runLine c line with
  | ok effect =>
    refine ⟨effect.context, changes_of_runLine ran, ?_⟩
    simp only [contextAfter, List.foldl_cons, ran]
  | error failure =>
    refine ⟨c, .none, ?_⟩
    simp only [contextAfter, List.foldl_cons, ran]

/-- What was entered before some lines and by them is all that there is afterwards, and the depth stays. -/
theorem contextAfter_entered {c : Context} (entered : c.Entered) (lines : List String) :
    (contextAfter c lines).Entered ∧ (contextAfter c lines).maxDepth = c.maxDepth := by
  induction lines generalizing c with
  | nil => exact ⟨entered, rfl⟩
  | cons line lines ih =>
    obtain ⟨next, changes, same⟩ := contextAfter_cons c line lines
    obtain ⟨later, depth⟩ := ih (changes.entered entered)
    rw [same]
    exact ⟨later, depth.trans changes.maxDepth⟩

/-! ## Replaying a listing -/

theorem oneLine_row {p : String × Expr} (identifier : Text.isIdentifier p.1 = true) (readable : p.2.isReadable = true) :
    '\n' ∉ (row p).toList := by
  have name := Text.trimmed_of_isIdentifier identifier
  have source := Expr.trimmed_write p.2 (Expr.isReadable_iff.1 readable).1
  have whole : Text.Trimmed (p.1.toList ++ ([' ', '=', ' '] ++ p.2.write.toList)) := name.around (by simp) source
  simpa [row] using whole.oneLine

theorem after?_append (word : String) (rest : List Char) : after? word (word.toList ++ rest) = some rest := by
  have starts : word.toList.isPrefixOf (word.toList ++ rest) = true := List.isPrefixOf_iff_prefix.2 ⟨rest, rfl⟩
  rw [after?, if_pos starts, List.drop_left' String.length_toList]

/-- The line that binds a name as a row says. -/
theorem runLine_row {c : Context} {p : String × Expr} (identifier : Text.isIdentifier p.1 = true)
    (readable : p.2.isReadable = true) :
    runLine c ("let " ++ row p) = .ok ⟨{ c with entries := c.entries.insert p.1 p.2 }, none, []⟩ := by
  have line : ofLine ("let " ++ row p) = .define (row p) := by
    rw [ofLine, String.toList_append, after?_append]
    simp only [String.ofList_toList]
  have written := Definition.ofText_row identifier (Expr.trimmed_write p.2 (Expr.isReadable_iff.1 readable).1)
  have inserted : c.insert p.1 p.2.write = .ok { c with entries := c.entries.insert p.1 p.2 } :=
    Context.insert_eq_ok_iff.2 ⟨p.2, Expr.read_write readable, rfl⟩
  rw [runLine, line, run, row, written]
  simp only [bind, Except.bind, Definition.insertInto, inserted]

/-- The rows put the entries in, one after the other. -/
theorem replay_rows {entries : List (String × Expr)} (identifiers : ∀ p ∈ entries, Text.isIdentifier p.1 = true)
    (readable : ∀ p ∈ entries, p.2.isReadable = true) (c : Context) :
    (entries.map row).foldlM (fun c row => (runLine c ("let " ++ row)).map Effect.context) c
      = .ok { c with entries := entries.foldl (fun b p => b.insert p.1 p.2) c.entries } := by
  induction entries generalizing c with
  | nil => rfl
  | cons p entries ih =>
    obtain ⟨identifier, identifiers⟩ := List.forall_mem_cons.1 identifiers
    obtain ⟨first, readable⟩ := List.forall_mem_cons.1 readable
    rw [List.map_cons, List.foldlM_cons, runLine_row identifier first]
    exact ih identifiers readable _

/-- Whatever was entered, whether it failed or not, the rows that `context` lists at the end are the names in ascending
order with what they stand for, a row for each. Entered as definitions, none of them fails, and they make the same
context. -/
theorem listing_replays (maxDepth : Int) (lines : List String) {c : Context}
    (after : contextAfter (.empty maxDepth) lines = c) (some : c.names ≠ []) :
    ∃ text rows, runLine c "context" = .ok ⟨c, .some text, []⟩
      ∧ (Script.splitLines text.toList).map String.ofList = rows
      ∧ List.Forall₂ (fun name row => ∃ source, c.sourceOf name = .ok source ∧ row = name ++ " = " ++ source) c.names rows
      ∧ c.names.Pairwise (· < ·) ∧ (∀ name, name ∈ c.names ↔ c.contains name = true)
      ∧ rows.foldlM (fun c row => (runLine c ("let " ++ row)).map Effect.context) (.empty maxDepth) = .ok c := by
  obtain ⟨entered, depth⟩ := contextAfter_entered (Context.entered_empty maxDepth) lines
  rw [after] at entered depth
  have identifiers : ∀ p ∈ c.entries.entries, Text.isIdentifier p.1 = true := fun p => entered.identifier
  have readable : ∀ p ∈ c.entries.entries, p.2.isReadable = true := fun p => entered.isReadable
  refine ⟨"\n".intercalate (c.entries.entries.map row), c.entries.entries.map row, ?_, ?_, ?_, ?_, ?_, ?_⟩
  · have line : ofLine "context" = .list := by decide
    rw [runLine, line, run, listing_eq_ok entered.holdsExprs some]
    rfl
  · apply Script.splitLines_intercalate
    · simpa [Context.names, Bindings.names] using some
    · simp only [List.forall_mem_map]
      exact fun p member => oneLine_row (identifiers p member) (readable p member)
  · rw [Context.names, Bindings.names, List.forall₂_map_left_iff, List.forall₂_map_right_iff, List.forall₂_same]
    intro p member
    refine ⟨p.2.write, ?_, rfl⟩
    simp only [Context.sourceOf, Bindings.get?_eq_some_iff.2 member]
    exact Expr.write?_eq_ok (readable p member)
  · exact c.entries.names_ascending
  · exact fun name => Bindings.mem_names_iff
  · have made : c.entries.entries.foldl (fun b p => b.insert p.1 p.2) .empty = c.entries := c.entries.ofList_entries
    rw [replay_rows identifiers readable]
    simp only [Context.empty] at depth ⊢
    rw [made, ← depth]

/-- A session in which a line fails, a definition is replaced and another removed. A text in it holds an `=` and the end
of a line, and a name is none that an expression can hold. -/
theorem listing_replays_session :
    let lines := ["let b = x +1", "let é = \"=\n\"", "let a", "let a =1", "unset a", "let b = [x, 1,]", "unset a", "b"]
    let c := contextAfter (.empty 3) lines
    c.names = ["b", "é"] ∧ runLine c "context" = .ok ⟨c, some "b = [x, 1]\né = \"=\\n\"", []⟩
      ∧ ["b = [x, 1]", "é = \"=\\n\""].foldlM (fun c row => (runLine c ("let " ++ row)).map Effect.context) (.empty 3)
        = .ok c := by
  intro lines c
  have names : c.names = ["b", "é"] := by rfl
  have printed : runLine c "context" = .ok ⟨c, some "b = [x, 1]\né = \"=\\n\"", []⟩ := by rfl
  obtain ⟨text, rows, listed, cutInto, -, -, -, replayed⟩ := listing_replays 3 lines rfl (by rw [names]; simp)
  rw [printed] at listed
  cases listed
  cases cutInto
  exact ⟨names, printed, replayed⟩

end Statement

end NamedExpr
