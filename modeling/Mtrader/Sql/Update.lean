/-
  Mtrader.Sql.Update

  UPDATE statements with numbered placeholders.

  A statement is written with placeholders `$n` and is sent with its arguments; `fill`
  puts the arguments in.  `text` writes a statement and `read` reads it, word by word:
  no name contains one of the characters that words are told apart by.
-/

import Mathlib.Data.List.Basic
import Mathlib.Data.List.Range

namespace Sql

variable {P Q V : Type}

-- ============================================================================
-- Statements
-- ============================================================================

/-- What stands behind a column in SET. -/
inductive Rhs (P : Type)
  | param (p : P)
  | now
  deriving DecidableEq

/-- `column=p`, or `column=p::type` with a cast. -/
structure Condition (P : Type) where
  column : String
  param : P
  cast : Option String := none
  deriving DecidableEq

/-- `UPDATE table SET … WHERE … AND …`; the parameters are placeholders or values. -/
structure UpdateStmt (P : Type) where
  table : String
  sets : List (String × Rhs P)
  conditions : List (Condition P)
  deriving DecidableEq

def Rhs.params : Rhs P → List P
  | .param p => [p]
  | .now => []

/-- The parameters in the order of the text. -/
def UpdateStmt.params (u : UpdateStmt P) : List P :=
  (u.sets.flatMap fun set => set.2.params) ++ u.conditions.map Condition.param

-- ============================================================================
-- Arguments
-- ============================================================================

/-- The argument of `$n`; they are counted from 1. -/
def argument (args : List V) : ℕ → Option V
  | 0 => none
  | n + 1 => args[n]?

def Rhs.fill (args : List V) : Rhs ℕ → Option (Rhs V)
  | .param n => (argument args n).map .param
  | .now => some .now

def fillSet (args : List V) (set : String × Rhs ℕ) : Option (String × Rhs V) :=
  (set.2.fill args).map fun rhs => (set.1, rhs)

def Condition.fill (args : List V) (c : Condition ℕ) : Option (Condition V) :=
  (argument args c.param).map fun v => { column := c.column, param := v, cast := c.cast }

/-- The statement with its arguments; `none` when a placeholder has none. -/
def UpdateStmt.fill (args : List V) (u : UpdateStmt ℕ) : Option (UpdateStmt V) := do
  let sets ← u.sets.mapM (fillSet args)
  let conditions ← u.conditions.mapM (Condition.fill args)
  return { table := u.table, sets := sets, conditions := conditions }

-- ============================================================================
-- Writing
-- ============================================================================

def placeholder (n : ℕ) : String := "$" ++ toString n

def Rhs.text : Rhs ℕ → String
  | .param n => placeholder n
  | .now => "NOW()"

def setText (set : String × Rhs ℕ) : String := set.1 ++ "=" ++ set.2.text

def Condition.rhs (c : Condition ℕ) : String :=
  placeholder c.param ++ match c.cast with
    | some type => "::" ++ type
    | none => ""

def Condition.text (c : Condition ℕ) : String := c.column ++ "=" ++ c.rhs

def UpdateStmt.text (u : UpdateStmt ℕ) : String :=
  "UPDATE " ++ u.table ++ " SET " ++ ", ".intercalate (u.sets.map setText) ++ " WHERE " ++
    " AND ".intercalate (u.conditions.map Condition.text)

-- ============================================================================
-- Reading
-- ============================================================================

/-- The parts of a text between separators. -/
def parts (sep : Char) (s : String) : List String := (s.split sep).toList.map fun part => part.copy

def readPlaceholder (s : String) : Option ℕ :=
  match s.toList with
  | '$' :: digits =>
      if digits ≠ [] ∧ digits.all Char.isDigit then some (Nat.ofDigitChars 10 digits 0) else none
  | _ => none

def readRhs (s : String) : Option (Rhs ℕ) :=
  if s = "NOW()" then some .now else (readPlaceholder s).map .param

def readSet (s : String) : Option (String × Rhs ℕ) :=
  match parts '=' s with
  | [column, rhs] => (readRhs rhs).map fun rhs => (column, rhs)
  | _ => none

def readCondition (s : String) : Option (Condition ℕ) :=
  match parts '=' s with
  | [column, rhs] =>
      match parts ':' rhs with
      | [p] => (readPlaceholder p).map fun n => { column := column, param := n }
      | [p, "", type] =>
          (readPlaceholder p).map fun n => { column := column, param := n, cast := some type }
      | _ => none
  | _ => none

/-- The words of SET; all but the last end with a comma. -/
def readSets : List String → Option (List (String × Rhs ℕ) × List String)
  | [] => none
  | word :: rest =>
      match parts ',' word with
      | [part] => (readSet part).map fun set => ([set], rest)
      | [part, ""] => do
          let set ← readSet part
          let (sets, rest) ← readSets rest
          return (set :: sets, rest)
      | _ => none

/-- The words of WHERE, with an AND between any two. -/
def readConditions : List String → Option (List (Condition ℕ))
  | [] => none
  | [word] => (readCondition word).map fun c => [c]
  | word :: sep :: rest =>
      if sep = "AND" then do
        let c ← readCondition word
        let cs ← readConditions rest
        return c :: cs
      else none

def UpdateStmt.read (s : String) : Option (UpdateStmt ℕ) :=
  match parts ' ' s with
  | "UPDATE" :: table :: "SET" :: rest => do
      let (sets, rest) ← readSets rest
      match rest with
      | "WHERE" :: rest => do
          let conditions ← readConditions rest
          return { table := table, sets := sets, conditions := conditions }
      | _ => none
  | _ => none

-- ============================================================================
-- Names
-- ============================================================================

/-- A character of an identifier that is not quoted. -/
def nameChar (ch : Char) : Bool := ch.isAlphanum || ch = '_' || ch = '$' || 128 ≤ ch.toNat

def IsName (s : String) : Prop := s ≠ "" ∧ s.toList.all nameChar

instance (s : String) : Decidable (IsName s) := inferInstanceAs (Decidable (_ ∧ _))

/-- What words and their parts are told apart by. -/
def separators : List Char := [' ', ',', '=', ':']

/-- The text is one part, whatever the separator. -/
def Plain (s : String) : Prop := ∀ ch ∈ s.toList, ch ∉ separators

instance (s : String) : Decidable (Plain s) :=
  List.decidableBAll (fun ch => ch ∉ separators) s.toList

theorem Plain.not_mem {s : String} (h : Plain s) {sep : Char} (hsep : sep ∈ separators) :
    sep ∉ s.toList := fun hmem => h sep hmem hsep

theorem plain_append {s t : String} : Plain (s ++ t) ↔ Plain s ∧ Plain t := by
  simp only [Plain, String.toList_append, List.forall_mem_append]

theorem not_separator_of_nameChar {ch : Char} (h : nameChar ch) : ch ∉ separators := by
  intro hsep
  simp only [separators, List.mem_cons, List.not_mem_nil, or_false] at hsep
  rcases hsep with rfl | rfl | rfl | rfl <;> cases h

theorem plain_of_isName {s : String} (h : IsName s) : Plain s :=
  fun ch hch => not_separator_of_nameChar (List.all_eq_true.mp h.2 ch hch)

theorem plain_placeholder (n : ℕ) : Plain (placeholder n) := by
  refine plain_append.mpr ⟨by decide, fun ch hch => ?_⟩
  rw [Nat.toString_eq_repr, Nat.toList_repr] at hch
  have hdigit : ch.isDigit := Nat.isDigit_of_mem_toDigits (by decide) (by decide) hch
  refine not_separator_of_nameChar ?_
  rw [nameChar, Char.isAlphanum, hdigit, Bool.or_true]
  rfl

theorem plain_rhs (rhs : Rhs ℕ) : Plain rhs.text := by
  cases rhs with
  | param n => exact plain_placeholder n
  | now => decide

-- ============================================================================
-- Parts
-- ============================================================================

theorem parts_intercalate {sep : Char} {l : List String} (hl : ∀ s ∈ l, sep ∉ s.toList)
    (hne : l ≠ []) : parts sep ((String.singleton sep).intercalate l) = l := by
  rw [parts, String.toList_split_intercalate hl, if_neg hne]

theorem parts_self {sep : Char} {s : String} (hs : sep ∉ s.toList) : parts sep s = [s] := by
  have hparts := parts_intercalate (l := [s]) (fun s' hs' => List.mem_singleton.mp hs' ▸ hs)
    (List.cons_ne_nil s [])
  rwa [String.intercalate_singleton] at hparts

theorem parts_two {sep : Char} {s t : String} (hs : sep ∉ s.toList) (ht : sep ∉ t.toList) :
    parts sep (s ++ String.singleton sep ++ t) = [s, t] := by
  have hparts : parts sep ((String.singleton sep).intercalate [s, t]) = [s, t] :=
    parts_intercalate (by simp [hs, ht]) (List.cons_ne_nil s [t])
  rwa [String.intercalate_cons_cons, String.intercalate_singleton] at hparts

theorem readPlaceholder_placeholder (n : ℕ) : readPlaceholder (placeholder n) = some n := by
  have hdigits : (placeholder n).toList = '$' :: Nat.toDigits 10 n := by
    rw [placeholder, String.toList_append, Nat.toString_eq_repr, Nat.toList_repr]
    rfl
  have hall : (Nat.toDigits 10 n).all Char.isDigit = true :=
    List.all_eq_true.mpr fun ch hch =>
      Nat.isDigit_of_mem_toDigits (by decide) (by decide) hch
  rw [readPlaceholder, hdigits]
  show (if _ then _ else _) = _
  rw [if_pos ⟨Nat.toDigits_ne_nil, hall⟩, Nat.ofDigitChars_ten_toDigits]

theorem placeholder_ne_now (n : ℕ) : placeholder n ≠ "NOW()" := by
  intro h
  have hhead := congrArg (fun s => s.toList.head?) h
  rw [placeholder, String.toList_append] at hhead
  cases hhead

theorem readRhs_text (rhs : Rhs ℕ) : readRhs rhs.text = some rhs := by
  cases rhs with
  | param n =>
      have htext : (Rhs.param n).text = placeholder n := rfl
      rw [readRhs, htext, if_neg (placeholder_ne_now n), readPlaceholder_placeholder]
      rfl
  | now => rfl

theorem readSet_setText {set : String × Rhs ℕ} (hset : IsName set.1) :
    readSet (setText set) = some set := by
  have hparts : parts '=' (setText set) = [set.1, set.2.text] :=
    parts_two ((plain_of_isName hset).not_mem (by decide)) ((plain_rhs set.2).not_mem (by decide))
  rw [readSet, hparts]
  simp only [readRhs_text, Option.map_some]

/-- Only the column is told from its value within the word. -/
theorem not_mem_setText {set : String × Rhs ℕ} (hset : IsName set.1) {sep : Char}
    (hsep : sep ∈ separators) (hne : sep ≠ '=') : sep ∉ (setText set).toList := by
  simp only [setText, String.toList_append, List.mem_append, not_or]
  exact ⟨⟨(plain_of_isName hset).not_mem hsep, by simp [hne]⟩, (plain_rhs set.2).not_mem hsep⟩

/-- The column is a name, and so is the type. -/
def Condition.Named (c : Condition P) : Prop := IsName c.column ∧ ∀ type ∈ c.cast, IsName type

section

variable {c : Condition ℕ}

theorem not_mem_rhs (hc : c.Named) {sep : Char} (hsep : sep ∈ separators) (hne : sep ≠ ':') :
    sep ∉ c.rhs.toList := by
  obtain ⟨column, n, cast⟩ := c
  cases cast with
  | none =>
      simp only [Condition.rhs, String.append_empty]
      exact (plain_placeholder n).not_mem hsep
  | some type =>
      simp only [Condition.rhs, String.toList_append, List.mem_append, not_or]
      exact ⟨(plain_placeholder n).not_mem hsep, by simp [hne],
        (plain_of_isName (hc.2 type rfl)).not_mem hsep⟩

theorem readCondition_text (hc : c.Named) : readCondition c.text = some c := by
  have hparts : parts '=' c.text = [c.column, c.rhs] :=
    parts_two ((plain_of_isName hc.1).not_mem (by decide)) (not_mem_rhs hc (by decide) (by decide))
  rw [readCondition, hparts]
  obtain ⟨column, n, cast⟩ := c
  cases cast with
  | none =>
      have hrhs : parts ':' (Condition.rhs { column, param := n }) = [placeholder n] := by
        rw [Condition.rhs, String.append_empty]
        exact parts_self ((plain_placeholder n).not_mem (by decide))
      simp only [hrhs, readPlaceholder_placeholder, Option.map_some]
  | some type =>
      have htype : ':' ∉ type.toList := (plain_of_isName (hc.2 type rfl)).not_mem (by decide)
      have hn : ':' ∉ (placeholder n).toList := (plain_placeholder n).not_mem (by decide)
      have hrhs : parts ':' (Condition.rhs { column, param := n, cast := some type }) =
          [placeholder n, "", type] := by
        have hparts : parts ':' ((String.singleton ':').intercalate [placeholder n, "", type]) =
            [placeholder n, "", type] :=
          parts_intercalate (by simp [hn, htype]) (List.cons_ne_nil _ _)
        rw [String.intercalate_cons_cons, String.intercalate_cons_cons,
          String.intercalate_singleton, String.append_assoc, String.append_assoc] at hparts
        exact hparts
      simp only [hrhs, readPlaceholder_placeholder, Option.map_some]

theorem not_mem_conditionText (hc : c.Named) : ' ' ∉ c.text.toList := by
  simp only [Condition.text, String.toList_append, List.mem_append, not_or]
  exact ⟨⟨(plain_of_isName hc.1).not_mem (by decide), by decide⟩,
    not_mem_rhs hc (by decide) (by decide)⟩

end

-- ============================================================================
-- Words
-- ============================================================================

/-- A comma behind every word but the last. -/
def commas : List String → List String
  | [] => []
  | [s] => [s]
  | s :: t :: rest => (s ++ ",") :: commas (t :: rest)

/-- An AND between any two words. -/
def ands : List String → List String
  | [] => []
  | [s] => [s]
  | s :: t :: rest => s :: "AND" :: ands (t :: rest)

def UpdateStmt.words (u : UpdateStmt ℕ) : List String :=
  "UPDATE" :: u.table :: "SET" :: (commas (u.sets.map setText) ++
    "WHERE" :: ands (u.conditions.map Condition.text))

theorem commas_ne_nil {l : List String} (hne : l ≠ []) : commas l ≠ [] := by
  cases l with
  | nil => exact absurd rfl hne
  | cons s rest => cases rest <;> exact List.cons_ne_nil _ _

theorem ands_ne_nil {l : List String} (hne : l ≠ []) : ands l ≠ [] := by
  cases l with
  | nil => exact absurd rfl hne
  | cons s rest => cases rest <;> exact List.cons_ne_nil _ _

theorem intercalate_commas (l : List String) :
    " ".intercalate (commas l) = ", ".intercalate l := by
  induction l using commas.induct with
  | case1 => rfl
  | case2 s => rfl
  | case3 s t rest ih =>
      rw [commas, String.intercalate_cons_of_ne_nil (commas_ne_nil (List.cons_ne_nil t rest)), ih,
        String.intercalate_cons_cons]
      simp only [String.append_assoc]
      rfl

theorem intercalate_ands (l : List String) :
    " ".intercalate (ands l) = " AND ".intercalate l := by
  induction l using ands.induct with
  | case1 => rfl
  | case2 s => rfl
  | case3 s t rest ih =>
      rw [ands, String.intercalate_cons_cons,
        String.intercalate_cons_of_ne_nil (ands_ne_nil (List.cons_ne_nil t rest)), ih,
        String.intercalate_cons_cons]
      simp only [String.append_assoc]
      rfl

/-- Everything that stands in the statement has a name, and no list is empty. -/
structure UpdateStmt.WellFormed (u : UpdateStmt P) : Prop where
  table : IsName u.table
  sets_ne : u.sets ≠ []
  sets : ∀ set ∈ u.sets, IsName set.1
  conditions_ne : u.conditions ≠ []
  conditions : ∀ c ∈ u.conditions, c.Named

theorem UpdateStmt.text_eq {u : UpdateStmt ℕ} (h : u.WellFormed) :
    u.text = " ".intercalate u.words := by
  have hsets : commas (u.sets.map setText) ≠ [] :=
    commas_ne_nil fun hnil => h.sets_ne (List.map_eq_nil_iff.mp hnil)
  have hconditions : ands (u.conditions.map Condition.text) ≠ [] :=
    ands_ne_nil fun hnil => h.conditions_ne (List.map_eq_nil_iff.mp hnil)
  rw [words, String.intercalate_cons_cons, String.intercalate_cons_cons,
    String.intercalate_cons_of_ne_nil (by simp),
    String.intercalate_append_of_ne_nil hsets (by simp),
    String.intercalate_cons_of_ne_nil hconditions, intercalate_commas, intercalate_ands, text]
  have hupdate : "UPDATE " = "UPDATE" ++ " " := rfl
  have hset : " SET " = " " ++ ("SET" ++ " ") := rfl
  have hwhere : " WHERE " = " " ++ ("WHERE" ++ " ") := rfl
  rw [hupdate, hset, hwhere]
  simp only [String.append_assoc]

theorem not_mem_commas {l : List String} (hl : ∀ s ∈ l, ' ' ∉ s.toList) :
    ∀ s ∈ commas l, ' ' ∉ s.toList := by
  induction l using commas.induct with
  | case1 => exact hl
  | case2 s => exact hl
  | case3 s t rest ih =>
      rw [commas, List.forall_mem_cons]
      refine ⟨?_, ih fun s' hs' => hl s' (List.mem_cons_of_mem _ hs')⟩
      rw [String.toList_append, List.mem_append, not_or]
      exact ⟨hl s List.mem_cons_self, by decide⟩

theorem not_mem_ands {l : List String} (hl : ∀ s ∈ l, ' ' ∉ s.toList) :
    ∀ s ∈ ands l, ' ' ∉ s.toList := by
  induction l using ands.induct with
  | case1 => exact hl
  | case2 s => exact hl
  | case3 s t rest ih =>
      rw [ands, List.forall_mem_cons, List.forall_mem_cons]
      exact ⟨hl s List.mem_cons_self, by decide,
        ih fun s' hs' => hl s' (List.mem_cons_of_mem _ hs')⟩

/-- The text falls into its words. -/
theorem UpdateStmt.parts_text {u : UpdateStmt ℕ} (h : u.WellFormed) :
    parts ' ' u.text = u.words := by
  rw [text_eq h]
  refine parts_intercalate ?_ (List.cons_ne_nil _ _)
  have hsets : ∀ s ∈ u.sets.map setText, ' ' ∉ s.toList :=
    List.forall_mem_map.mpr fun set hset =>
      not_mem_setText (h.sets set hset) (by decide) (by decide)
  have hconditions : ∀ s ∈ u.conditions.map Condition.text, ' ' ∉ s.toList :=
    List.forall_mem_map.mpr fun c hc => not_mem_conditionText (h.conditions c hc)
  simp only [words, List.forall_mem_cons, List.forall_mem_append]
  exact ⟨by decide, (plain_of_isName h.table).not_mem (by decide), by decide,
    not_mem_commas hsets, by decide, not_mem_ands hconditions⟩

-- ============================================================================
-- Reading what is written
-- ============================================================================

theorem readSets_commas {sets : List (String × Rhs ℕ)} (hne : sets ≠ [])
    (hsets : ∀ set ∈ sets, IsName set.1) (rest : List String) :
    readSets (commas (sets.map setText) ++ rest) = some (sets, rest) := by
  induction sets with
  | nil => exact absurd rfl hne
  | cons set sets ih =>
      have hset := hsets set List.mem_cons_self
      have hcomma : ',' ∉ (setText set).toList := not_mem_setText hset (by decide) (by decide)
      cases sets with
      | nil =>
          show readSets (setText set :: rest) = _
          rw [readSets, parts_self hcomma]
          simp only [readSet_setText hset, Option.map_some]
      | cons set' sets =>
          have hparts : parts ',' (setText set ++ ",") = [setText set, ""] := by
            have htwo := parts_two hcomma (t := "") (by decide)
            rwa [String.append_empty] at htwo
          have hrest := ih (List.cons_ne_nil _ _) fun s hs => hsets s (List.mem_cons_of_mem _ hs)
          show readSets ((setText set ++ ",") :: (commas ((set' :: sets).map setText) ++ rest)) = _
          rw [readSets, hparts]
          simp only [readSet_setText hset, hrest, bind, Option.bind, pure]

theorem readConditions_ands {conditions : List (Condition ℕ)} (hne : conditions ≠ [])
    (hconditions : ∀ c ∈ conditions, c.Named) :
    readConditions (ands (conditions.map Condition.text)) = some conditions := by
  induction conditions with
  | nil => exact absurd rfl hne
  | cons c conditions ih =>
      have hc := readCondition_text (hconditions c List.mem_cons_self)
      cases conditions with
      | nil =>
          show readConditions [c.text] = _
          rw [readConditions, hc]
          rfl
      | cons c' conditions =>
          have hrest := ih (List.cons_ne_nil _ _)
            fun s hs => hconditions s (List.mem_cons_of_mem _ hs)
          show readConditions (c.text :: "AND" :: ands ((c' :: conditions).map Condition.text)) = _
          rw [readConditions, if_pos rfl, hc, hrest]
          rfl

/-- Reading gives back the statement that was written. -/
theorem UpdateStmt.read_text {u : UpdateStmt ℕ} (h : u.WellFormed) : read u.text = some u := by
  rw [read, parts_text h]
  simp only [words, readSets_commas h.sets_ne h.sets, readConditions_ands h.conditions_ne
    h.conditions, bind, Option.bind, pure]

end Sql
