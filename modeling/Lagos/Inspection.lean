/-
The inspection of a document (`inspect` and `Inspection` in `config/interpolate.rs`).

`process` walks a document in two modes. One expands its references; the other, which needs no
environment, puts a marker in the place of each and lists them, with the value each would be
given, so that the scalars of the parsed document can be expanded one by one
(`resolve_scalar`). The walk is the same, so it is `walk` here, over what is done to a piece of
text and to a reference; that the first mode is the one of `Interpolate.lean` is
`interpolate_eq_walk`.

What holds of two walks of one document is shown once (`Simulates`).
-/
import Lagos.Interpolate
import Mathlib.Data.List.MinMax

set_option autoImplicit false

open RustStd

namespace Lagos.Interpolate

/-! ## The walk -/

/-- What a walk does: to literal text, and to what stands between the braces of a reference at a
line and a column. -/
structure Mode (σ : Type) where
  push : Str → σ → σ
  refer : ℕ → ℕ → Str → σ → Except InterpolateError σ

section Walk

variable {σ : Type} (mode : Mode σ)

/-- `expand_into`. `offset` is how many characters come before the one that the scan is at or,
past a dollar sign, before the dollar sign. -/
def walk_into (line : ℕ) : ℕ → Scan → Str → σ → Except InterpolateError σ
  | _, .text, [], s => .ok s
  | _, .dollar, [], s => .ok (mode.push ['$'] s)
  | _, .body _, [], _ => .error (.Unterminated line)
  | offset, .text, c :: fragment, s =>
    if c = '$' then walk_into line offset .dollar fragment s
    else walk_into line (offset + 1) .text fragment (mode.push [c] s)
  | offset, .dollar, c :: fragment, s =>
    -- `$$` is one dollar sign, and before anything but a brace it is itself
    if c = '$' then walk_into line (offset + 2) .text fragment (mode.push ['$'] s)
    else if c = '{' then walk_into line offset (.body []) fragment s
    else walk_into line (offset + 2) .text fragment (mode.push ['$', c] s)
  | offset, .body read, c :: fragment, s =>
    if c = '}' then
      match mode.refer line (offset + 1) read s with
      | .ok s => walk_into line (offset + read.length + 3) .text fragment s
      | .error error => .error error
    else walk_into line offset (.body (read ++ [c])) fragment s

/-- The loop of `process`. -/
def walk_lines : ℕ → Option ℕ → List Str → σ → Except InterpolateError σ
  | _, _, [], s => .ok s
  | line_no, block, raw_line :: lines, s =>
    let block := block_at block raw_line
    let (code, comment) := code_and_comment block raw_line
    let opened := if block.isNone && opens_block_scalar code then some (indent_of raw_line) else block
    match walk_into mode line_no 0 .text code s with
    | .error error => .error error
    | .ok s =>
      walk_lines (line_no + 1) opened lines
        (mode.push (comment ++ if lines.isEmpty then [] else ['\n']) s)

/-- `process`. -/
def walk (text : Str) (s : σ) : Except InterpolateError σ :=
  walk_lines mode 1 none (split '\n' text) s

end Walk

/-- The mode that expands. -/
def expanding (lookup : Str → Option Str) (fallback : Option (Str → Str)) : Mode Expansion where
  push text e := { e with text := e.text ++ text }
  refer line _ body e := expand_reference lookup fallback line body e

/-! ## Inspection -/

/-- `VariableState`. -/
inductive VariableState where
  | Set
  | Defaulted
  | Required
  | Invalid
  deriving DecidableEq, Repr

/-- `VariableReference`. -/
structure VariableReference where
  name : Str
  line : ℕ
  column : ℕ
  has_default : Bool
  state : VariableState
  marker : Str
  selected : Option Str
  deriving DecidableEq, Repr

/-- `Expansion` in the mode that inspects. -/
structure Inspecting extends Expansion where
  occurrences : List VariableReference := []
  deriving DecidableEq, Repr

/-- `Inspection`. -/
structure Inspection where
  masked : Str
  references : List VariableReference
  deriving DecidableEq, Repr

/-- The marker of the `n`-th reference. -/
def marker ( inspection_prefix : Str) (n : ℕ) : Str :=
  inspection_prefix ++ Nat.toDigits 10 n ++ "-end".toList

/-- The name in a reference and its default, if the name is one. -/
def checked_reference (line : ℕ) (body : Str) : Except InterpolateError (Str × Option Str) :=
  let (name, default) := reference body
  if name.isEmpty then .error (.EmptyName line)
  else if is_valid_name name = false then .error (.BadName name line)
  else .ok (name, default)

/-- What is said of the `n`-th reference. -/
def occurrence (lookup : Str → Option Str) ( inspection_prefix : Str) (line column : ℕ) (name : Str)
    (default : Option Str) (n : ℕ) : VariableReference :=
  let resolved := resolved lookup name
  let state : VariableState := match resolved, default with
    | some _, _ => .Set
    | none, some _ => .Defaulted
    | none, none => .Required
  let selected := resolved.or default
  let invalid := selected.any fun v => !is_structurally_safe v
  { name := name
    line := line
    column := column
    has_default := default.isSome
    state := if invalid then .Invalid else state
    marker := marker inspection_prefix n
    selected := if invalid then none else selected }

/-- A reference in the mode that inspects. -/
def inspect_reference (lookup : Str → Option Str) ( inspection_prefix : Str) (line column : ℕ)
    (body : Str) (e : Inspecting) : Except InterpolateError Inspecting :=
  (checked_reference line body).map fun (name, default) =>
    let reference :=
      occurrence lookup inspection_prefix line column name default e.occurrences.length
    { e with
      text := e.text ++ reference.marker
      referenced := note e.referenced name
      occurrences := e.occurrences ++ [reference] }

/-- The mode that inspects. -/
def inspecting (lookup : Str → Option Str) ( inspection_prefix : Str) : Mode Inspecting where
  push text e := { e with text := e.text ++ text }
  refer := inspect_reference lookup inspection_prefix

/-- `str::contains`. -/
def contains (s pat : Str) : Bool := (split_once_at pat s).isSome

/-- The `while` of `inspect`: the word grows until the document does not have it, which is so
once it is longer. -/
def widen (text : Str) : ℕ → Str → Str
  | 0, inspection_prefix => inspection_prefix
  | fuel + 1, inspection_prefix =>
    if contains text inspection_prefix then widen text fuel ( inspection_prefix ++ ['x'])
    else inspection_prefix

/-- The word that the markers begin with. -/
def marker_prefix (text : Str) : Str :=
  widen text (text.length + 1) "lagos-vars-placeholder-".toList

/-- `inspect`. -/
def inspect (lookup : Str → Option Str) (text : Str) : Except InterpolateError Inspection :=
  (walk (inspecting lookup ( marker_prefix text)) text {}).map fun e => ⟨e.text, e.occurrences⟩

/-- The marker that is seen first in a text: what comes before it, its reference, and what comes
after it. -/
def next_reference (references : List VariableReference) (rest : Str) :
    Option (Str × VariableReference × Str) :=
  (references.filterMap fun reference =>
    (split_once_at reference.marker rest).map fun (before, after) =>
      (before, reference, after)).argmin fun found => found.1.length

/-- The loop of `resolve_scalar`. A marker is not empty, so a turn for every character is
enough. -/
def resolve_loop (references : List VariableReference) : ℕ → Str → Str → Option Str
  | 0, _, _ => none
  | fuel + 1, rest, out =>
    match next_reference references rest with
    | none => some (out ++ rest)
    | some (before, reference, after) =>
      reference.selected.bind fun value =>
        resolve_loop references fuel after (out ++ before ++ value)

/-- `Inspection::resolve_scalar`. -/
def Inspection.resolve_scalar (i : Inspection) (scalar : Str) : Option Str :=
  resolve_loop i.references (scalar.length + 1) scalar []

/-! ## Two walks of one document -/

section Simulation

variable {σ τ : Type}

/-- What the results of two walks have to do with each other: where the second succeeds the first
does so too and they are related, or the second is bad. -/
def Agrees (R : σ → τ → Prop) (Bad : τ → Prop) :
    Except InterpolateError σ → Except InterpolateError τ → Prop
  | .ok s, .ok t => R s t
  | .error _, .ok t => Bad t
  | .error _, .error _ => True
  | .ok _, .error _ => False

theorem agrees_error {R : σ → τ → Prop} {Bad : τ → Prop} {error : InterpolateError}
    {r : Except InterpolateError τ} (h : ∀ t, r = .ok t → Bad t) :
    Agrees R Bad (.error error) r := by
  cases r with
  | ok t => exact h t rfl
  | error _ => trivial

/-- The first succeeds only where the second does, -/
theorem Agrees.of_left {R : σ → τ → Prop} {Bad : τ → Prop} {s : σ} {r : Except InterpolateError τ}
    (h : Agrees R Bad (.ok s) r) : ∃ t, r = .ok t ∧ R s t := by
  cases r with
  | ok t => exact ⟨t, rfl, h⟩
  | error _ => exact False.elim h

/-- and where the second succeeds the first does, or that is bad. -/
theorem Agrees.of_right {R : σ → τ → Prop} {Bad : τ → Prop} {r : Except InterpolateError σ} {t : τ}
    (h : Agrees R Bad r (.ok t)) : (∃ s, r = .ok s ∧ R s t) ∨ ((∀ s, r ≠ .ok s) ∧ Bad t) := by
  cases r with
  | ok s => exact .inl ⟨s, rfl, h⟩
  | error _ =>
    refine .inr ⟨?_, h⟩
    intro s hs
    cases hs

/-- One mode does what the other does, as long as that is not bad, and what is bad stays so. -/
structure Simulates (a : Mode σ) (b : Mode τ) (R : σ → τ → Prop) (Bad : τ → Prop) : Prop where
  push : ∀ {s t} (text : Str), R s t → R (a.push text s) (b.push text t)
  refer : ∀ {s t} (line column : ℕ) (body : Str), R s t →
    Agrees R Bad (a.refer line column body s) (b.refer line column body t)
  bad_push : ∀ {t} (text : Str), Bad t → Bad (b.push text t)
  bad_refer : ∀ {t t'} (line column : ℕ) (body : Str), Bad t →
    b.refer line column body t = .ok t' → Bad t'

namespace Simulates

variable {a : Mode σ} {b : Mode τ} {R : σ → τ → Prop} {Bad : τ → Prop}

theorem bad_into (h : Simulates a b R Bad) {line offset : ℕ} {scan : Scan} {fragment : Str}
    {t t' : τ} (ht : Bad t) (hwalk : walk_into b line offset scan fragment t = .ok t') :
    Bad t' := by
  induction fragment generalizing offset scan t with
  | nil =>
    cases scan with
    | text =>
      cases hwalk
      exact ht
    | dollar =>
      cases hwalk
      exact h.bad_push _ ht
    | body read => cases hwalk
  | cons c fragment ih =>
    cases scan with
    | text =>
      rw [walk_into] at hwalk
      split at hwalk
      · exact ih ht hwalk
      · exact ih (h.bad_push _ ht) hwalk
    | dollar =>
      rw [walk_into] at hwalk
      split at hwalk
      · exact ih (h.bad_push _ ht) hwalk
      · split at hwalk
        · exact ih ht hwalk
        · exact ih (h.bad_push _ ht) hwalk
    | body read =>
      rw [walk_into] at hwalk
      split at hwalk
      · split at hwalk
        · rename_i t₁ hrefer
          exact ih (h.bad_refer _ _ _ ht hrefer) hwalk
        · cases hwalk
      · exact ih ht hwalk

theorem bad_lines (h : Simulates a b R Bad) {lines : List Str} {line_no : ℕ} {block : Option ℕ}
    {t t' : τ} (ht : Bad t) (hwalk : walk_lines b line_no block lines t = .ok t') : Bad t' := by
  induction lines generalizing line_no block t with
  | nil =>
    cases hwalk
    exact ht
  | cons raw lines ih =>
    rw [walk_lines] at hwalk
    dsimp only at hwalk
    split at hwalk
    · cases hwalk
    · rename_i t₁ hinto
      exact ih (h.bad_push _ (h.bad_into ht hinto)) hwalk

theorem into (h : Simulates a b R Bad) {line offset : ℕ} {scan : Scan} {fragment : Str} {s : σ}
    {t : τ} (hst : R s t) :
    Agrees R Bad (walk_into a line offset scan fragment s)
      (walk_into b line offset scan fragment t) := by
  induction fragment generalizing offset scan s t with
  | nil =>
    cases scan with
    | text => exact hst
    | dollar => exact h.push _ hst
    | body read => trivial
  | cons c fragment ih =>
    cases scan with
    | text =>
      rw [walk_into, walk_into]
      split
      · exact ih hst
      · exact ih (h.push _ hst)
    | dollar =>
      rw [walk_into, walk_into]
      split
      · exact ih (h.push _ hst)
      · split
        · exact ih hst
        · exact ih (h.push _ hst)
    | body read =>
      rw [walk_into, walk_into]
      split
      · have hrefer := h.refer line (offset + 1) read hst
        revert hrefer
        cases a.refer line (offset + 1) read s with
        | ok s₁ =>
          cases b.refer line (offset + 1) read t with
          | ok t₁ => exact fun hrefer => ih hrefer
          | error _ => exact False.elim
        | error _ =>
          cases b.refer line (offset + 1) read t with
          | error _ => exact fun _ => trivial
          | ok t₁ =>
            -- The first stops here; the second goes on and stays bad.
            intro hbad
            exact agrees_error fun t₂ hwalk => h.bad_into hbad hwalk
      · exact ih hst

theorem lines (h : Simulates a b R Bad) {lines : List Str} {line_no : ℕ} {block : Option ℕ} {s : σ}
    {t : τ} (hst : R s t) :
    Agrees R Bad (walk_lines a line_no block lines s) (walk_lines b line_no block lines t) := by
  induction lines generalizing line_no block s t with
  | nil => exact hst
  | cons raw lines ih =>
    rw [walk_lines, walk_lines]
    dsimp only
    have hinto : Agrees R Bad
        (walk_into a line_no 0 .text (code_and_comment (block_at block raw) raw).1 s)
        (walk_into b line_no 0 .text (code_and_comment (block_at block raw) raw).1 t) :=
      h.into hst
    revert hinto
    cases walk_into a line_no 0 .text (code_and_comment (block_at block raw) raw).1 s with
    | ok s₁ =>
      cases walk_into b line_no 0 .text (code_and_comment (block_at block raw) raw).1 t with
      | ok t₁ => exact fun hinto => ih (h.push _ hinto)
      | error _ => exact False.elim
    | error _ =>
      cases walk_into b line_no 0 .text (code_and_comment (block_at block raw) raw).1 t with
      | error _ => exact fun _ => trivial
      | ok t₁ =>
        intro hbad
        exact agrees_error fun t₂ hwalk => h.bad_lines (h.bad_push _ hbad) hwalk

/-- **One document, two walks.** -/
theorem walk (h : Simulates a b R Bad) (text : Str) {s : σ} {t : τ} (hst : R s t) :
    Agrees R Bad (walk a text s) (walk b text t) := h.lines hst

end Simulates

end Simulation

/-! ## The mode that expands -/

section

variable (lookup : Str → Option Str) (fallback : Option (Str → Str))

theorem expand_into_eq (line offset : ℕ) (scan : Scan) (fragment : Str) (e : Expansion) :
    expand_into lookup fallback line scan fragment e
      = walk_into (expanding lookup fallback) line offset scan fragment e := by
  induction fragment generalizing offset scan e with
  | nil => cases scan <;> rfl
  | cons c fragment ih =>
    cases scan with
    | text =>
      rw [expand_into, walk_into]
      split
      · exact ih _ _ _
      · exact ih _ _ _
    | dollar =>
      rw [expand_into, walk_into]
      split
      · exact ih _ _ _
      · split
        · exact ih _ _ _
        · exact ih _ _ _
    | body read =>
      rw [expand_into, walk_into]
      split
      · simp only [expanding]
        cases expand_reference lookup fallback line read e with
        | ok e₁ => exact ih _ _ _
        | error _ => rfl
      · exact ih _ _ _

theorem process_lines_eq (line_no : ℕ) (block : Option ℕ) (lines : List Str) (e : Expansion) :
    process_lines lookup fallback line_no block lines e
      = walk_lines (expanding lookup fallback) line_no block lines e := by
  induction lines generalizing line_no block e with
  | nil => rfl
  | cons raw lines ih =>
    rw [process_lines, walk_lines]
    dsimp only
    rw [expand_into_eq lookup fallback line_no 0]
    cases walk_into (expanding lookup fallback) line_no 0 .text
        (code_and_comment (block_at block raw) raw).1 e with
    | error _ => rfl
    | ok e₁ =>
      simp only [ih, expanding, List.append_assoc]

/-- **Expansion is the walk in one of its modes.** -/
theorem interpolate_eq_walk (text : Str) :
    interpolate lookup text = walk (expanding lookup none) text {} :=
  process_lines_eq lookup none 1 none _ _

end

end Lagos.Interpolate
