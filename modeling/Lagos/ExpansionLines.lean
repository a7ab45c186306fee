/-
Expansion, line by line (`process` and `expand_into` in `config/interpolate.rs`).

The code of a line is read in pieces: characters, escapes, references, and at the end perhaps a
reference that is never closed. Every piece but a reference is written as it stands, an escape as
one dollar sign, and a reference as the value it is given. A line is its pieces written one after
the other and then its comment, and the document is its lines (`expansion_by_lines`).

No value has a control character, so that none adds a line. But a value may be empty: a last line
of such references only is written as nothing, and the text then ends with the line break before
it.
-/
import Lagos.Interpolate
import Mathlib.Data.List.Forall2

set_option autoImplicit false

open RustStd

namespace Lagos.Interpolate

/-! ## The loop -/

/-- The line that an error names. -/
def InterpolateError.line : InterpolateError → ℕ
  | .Unset _ line => line
  | .Unterminated line => line
  | .EmptyName line => line
  | .BadName _ line => line
  | .ControlCharacter _ line => line

section Loop

variable (lookup : Str → Option Str) (fallback : Option (Str → Str))

/-- The loop of `process` as it is written: where the text ends with a line break, one is written
after the last line as well. -/
def process_loop (ends_with_newline : Bool) :
    ℕ → Option ℕ → List Str → Expansion → Except InterpolateError Expansion
  | _, _, [], e => .ok e
  | line_no, block, raw_line :: lines, e =>
    let block := block_at block raw_line
    let (code, comment) := code_and_comment block raw_line
    let opened :=
      if block.isNone && opens_block_scalar code then some (indent_of raw_line) else block
    match expand_into lookup fallback line_no .text code e with
    | .error error => .error error
    | .ok e =>
      process_loop ends_with_newline (line_no + 1) opened lines
        { e with
          text := e.text ++ comment ++ if !lines.isEmpty || ends_with_newline then ['\n'] else [] }

/-- `process`, without the mode that inspects. -/
def process (text : Str) : Except InterpolateError Expansion :=
  let ends_with_newline := ends_with text ['\n']
  (process_loop lookup fallback ends_with_newline 1 none (split '\n' text) {}).map fun e =>
    -- the line break after the last line is dropped
    if ends_with_newline then { e with text := e.text.dropLast } else e

variable {lookup fallback}

theorem process_loop_eq {ends_with_newline : Bool} {lines : List Str} (hne : lines ≠ [])
    {line_no : ℕ} {block : Option ℕ} {e : Expansion} :
    process_loop lookup fallback ends_with_newline line_no block lines e
      = (process_lines lookup fallback line_no block lines e).map fun e =>
          { e with text := e.text ++ if ends_with_newline then ['\n'] else [] } := by
  induction lines generalizing line_no block e with
  | nil => exact absurd rfl hne
  | cons raw lines ih =>
    rw [process_loop, process_lines]
    dsimp only
    cases expand_into lookup fallback line_no .text
        (code_and_comment (block_at block raw) raw).1 e with
    | error error => rfl
    | ok e₁ =>
      cases lines with
      | nil => simp [process_loop, process_lines, Except.map]
      | cons next lines => exact ih (List.cons_ne_nil next lines)

/-- **The extra line break is dropped again**: the lines are joined by line breaks. -/
theorem process_eq (text : Str) :
    process lookup fallback text = interpolate_with_fallback lookup fallback text := by
  unfold process interpolate_with_fallback
  dsimp only
  rw [process_loop_eq (split_ne_nil '\n' text)]
  cases process_lines lookup fallback 1 none (split '\n' text) {} with
  | error error => rfl
  | ok e =>
    cases ends_with text ['\n'] with
    | false => simp [Except.map]
    | true => simp [Except.map]

end Loop

/-! ## Pieces of code -/

/-- A piece of a line's code. -/
inductive Piece where
  | char (c : Char)
  | escape
  | reference (body : Str)
  /-- A reference that is never closed. -/
  | unclosed (read : Str)
  deriving DecidableEq, Repr

/-- What is read as a piece. -/
def Piece.source : Piece → Str
  | .char c => [c]
  | .escape => ['$', '$']
  | .reference body => '$' :: '{' :: (body ++ ['}'])
  | .unclosed read => '$' :: '{' :: read

/-- How code is read. A dollar sign is a character of its own only where neither a dollar sign nor
a brace follows it. -/
inductive Reads : Str → List Piece → Prop
  | nil : Reads [] []
  | char {c : Char} {code : Str} {pieces : List Piece} (hc : c ≠ '$') (h : Reads code pieces) :
      Reads (c :: code) (.char c :: pieces)
  | dollar {code : Str} {pieces : List Piece} (hnext : ∀ c ∈ code.head?, c ≠ '$' ∧ c ≠ '{')
      (h : Reads code pieces) : Reads ('$' :: code) (.char '$' :: pieces)
  | escape {code : Str} {pieces : List Piece} (h : Reads code pieces) :
      Reads ('$' :: '$' :: code) (.escape :: pieces)
  | reference {body code : Str} {pieces : List Piece} (hbody : '}' ∉ body)
      (h : Reads code pieces) :
      Reads ('$' :: '{' :: (body ++ '}' :: code)) (.reference body :: pieces)
  | unclosed {read : Str} (hread : '}' ∉ read) : Reads ('$' :: '{' :: read) [.unclosed read]

namespace Reads

/-- Nothing of the code is left out. -/
theorem source_eq {code : Str} {pieces : List Piece} (h : Reads code pieces) :
    pieces.flatMap Piece.source = code := by
  induction h with
  | nil => rfl
  | char _ _ ih => rw [List.flatMap_cons, ih, Piece.source, List.singleton_append]
  | dollar _ _ ih => rw [List.flatMap_cons, ih, Piece.source, List.singleton_append]
  | escape _ ih => rw [List.flatMap_cons, ih, Piece.source, List.cons_append, List.singleton_append]
  | reference _ _ ih => simp [Piece.source, ih]
  | unclosed _ => simp [Piece.source]

/-- Any code can be read. -/
theorem total (code : Str) : ∃ pieces, Reads code pieces := by
  induction hn : code.length using Nat.strong_induction_on generalizing code with
  | _ n ih =>
    subst hn
    cases code with
    | nil => exact ⟨[], .nil⟩
    | cons c code =>
      by_cases hc : c = '$'
      · subst hc
        cases code with
        | nil => exact ⟨_, .dollar (by simp) .nil⟩
        | cons d code =>
          by_cases hd : d = '$'
          · subst hd
            obtain ⟨pieces, h⟩ := ih code.length
              (by simp only [List.length_cons]; omega) code rfl
            exact ⟨_, h.escape⟩
          · by_cases hbrace : d = '{'
            · subst hbrace
              by_cases hclosed : '}' ∈ code
              · -- The reference goes to the first brace that closes it.
                obtain ⟨body, rest, rfl, hbody⟩ := List.eq_append_cons_of_mem hclosed
                obtain ⟨pieces, h⟩ := ih rest.length (by simp; omega) rest rfl
                exact ⟨_, h.reference hbody⟩
              · exact ⟨_, .unclosed hclosed⟩
            · obtain ⟨pieces, h⟩ := ih (d :: code).length (by simp) (d :: code) rfl
              refine ⟨_, .dollar ?_ h⟩
              simp [hd, hbrace]
      · obtain ⟨pieces, h⟩ := ih code.length (by simp) code rfl
        exact ⟨_, h.char hc⟩

/-- Code without a dollar sign is its characters. -/
theorem of_no_dollar {code : Str} (h : '$' ∉ code) : Reads code (code.map .char) := by
  induction code with
  | nil => exact .nil
  | cons c code ih =>
    obtain ⟨hc, hcode⟩ := not_or.mp (List.mem_cons.not.mp h)
    exact .char (Ne.symm hc) (ih hcode)

/-- Two bodies that end at the first brace are the same. -/
theorem body_unique {body body' code code' : Str} (h : '}' ∉ body) (h' : '}' ∉ body')
    (heq : body ++ '}' :: code = body' ++ '}' :: code') : body = body' ∧ code = code' := by
  have hsplit := split_once_append h code
  rw [heq, split_once_append h' code'] at hsplit
  simpa using hsplit.symm

/-- There is one way to read code. -/
theorem unique {code : Str} {pieces pieces' : List Piece} (h : Reads code pieces)
    (h' : Reads code pieces') : pieces = pieces' := by
  induction h generalizing pieces' with
  | nil =>
    cases h'
    rfl
  | char hc h ih =>
    cases h' with
    | char _ h' => rw [ih h']
    | dollar _ _ => exact absurd rfl hc
    | escape _ => exact absurd rfl hc
    | reference _ _ => exact absurd rfl hc
    | unclosed _ => exact absurd rfl hc
  | dollar hnext h ih =>
    cases h' with
    | char hc _ => exact absurd rfl hc
    | dollar _ h' => rw [ih h']
    | escape _ => exact absurd rfl (hnext _ rfl).1
    | reference _ _ => exact absurd rfl (hnext _ rfl).2
    | unclosed _ => exact absurd rfl (hnext _ rfl).2
  | escape h ih =>
    cases h' with
    | char hc _ => exact absurd rfl hc
    | dollar hnext _ => exact absurd rfl (hnext _ rfl).1
    | escape h' => rw [ih h']
  | @reference body code pieces hbody h ih =>
    -- Only another reference begins like this, and it ends at the same brace.
    generalize hcode : '$' :: '{' :: (body ++ '}' :: code) = whole at h'
    cases h' with
    | nil => cases hcode
    | char hc _ => exact absurd (List.cons.inj hcode).1.symm hc
    | dollar hnext _ =>
      obtain ⟨-, rfl⟩ := List.cons.inj hcode
      exact absurd rfl (hnext _ rfl).2
    | escape _ => exact absurd (List.cons.inj (List.cons.inj hcode).2).1 (by decide)
    | reference hbody' h' =>
      obtain ⟨rfl, rfl⟩ := body_unique hbody hbody' (List.cons.inj (List.cons.inj hcode).2).2
      rw [ih h']
    | unclosed hread =>
      rw [← (List.cons.inj (List.cons.inj hcode).2).2] at hread
      simp at hread
  | @unclosed read hread =>
    generalize hcode : '$' :: '{' :: read = whole at h'
    cases h' with
    | nil => cases hcode
    | char hc _ => exact absurd (List.cons.inj hcode).1.symm hc
    | dollar hnext _ =>
      obtain ⟨-, rfl⟩ := List.cons.inj hcode
      exact absurd rfl (hnext _ rfl).2
    | escape _ => exact absurd (List.cons.inj (List.cons.inj hcode).2).1 (by decide)
    | reference _ _ =>
      rw [(List.cons.inj (List.cons.inj hcode).2).2] at hread
      simp at hread
    | unclosed _ => rw [(List.cons.inj (List.cons.inj hcode).2).2]

end Reads

/-! ## What a piece is written as -/

section Values

variable (lookup : Str → Option Str) (fallback : Option (Str → Str))

/-- The value that a reference is given, if it is one that can be given: that of its variable, its
default, or a placeholder, in this order. -/
def given (body : Str) : Option Str :=
  if is_valid_name (reference body).1 then
    (((resolved lookup (reference body).1).or (reference body).2).or
      (fallback.map fun f => f (reference body).1)).filter is_structurally_safe
  else none

/-- What a piece is written as: nothing where it fails. -/
def Piece.value : Piece → Option Str
  | .char c => some [c]
  | .escape => some ['$']
  | .reference body => given lookup fallback body
  | .unclosed _ => none

/-- A reference that fails is among the pieces. -/
def Fails (code : Str) : Prop :=
  ∃ pieces, Reads code pieces ∧ ∃ piece ∈ pieces, piece.value lookup fallback = none

/-- A line as it is written: its code piece by piece, and then its comment. -/
def Written (parts : Str × Str) (written : Str) : Prop :=
  ∃ pieces values, Reads parts.1 pieces
    ∧ List.Forall₂ (fun piece v => piece.value lookup fallback = some v) pieces values
    ∧ written = values.flatten ++ parts.2

variable {lookup fallback} {line : ℕ} {e : Expansion}

/-- What `substituted` decides, of a valid name. -/
theorem substituted_spec (name : Str) (default : Option Str) :
    match substituted lookup fallback line name default e with
    | .ok (v, e') => ((resolved lookup name).or default).or (fallback.map fun f => f name) = some v
        ∧ e'.text = e.text
    | .error error => ((resolved lookup name).or default).or (fallback.map fun f => f name) = none
        ∧ error.line = line := by
  unfold substituted
  cases resolved lookup name with
  | some v => exact ⟨rfl, rfl⟩
  | none =>
    cases default with
    | some d => exact ⟨rfl, rfl⟩
    | none =>
      cases fallback with
      | some f => exact ⟨rfl, rfl⟩
      | none => exact ⟨rfl, rfl⟩

/-- **One reference**: its value is written, or it fails and the error names the line. -/
theorem expand_reference_spec (body : Str) :
    match expand_reference lookup fallback line body e with
    | .ok e' => ∃ v, given lookup fallback body = some v ∧ e'.text = e.text ++ v
    | .error error => given lookup fallback body = none ∧ error.line = line := by
  unfold expand_reference given
  dsimp only
  cases hempty : (reference body).1.isEmpty with
  | true =>
    rw [List.isEmpty_iff.mp hempty]
    exact ⟨rfl, rfl⟩
  | false =>
    cases hname : is_valid_name (reference body).1 with
    | false => exact ⟨rfl, rfl⟩
    | true =>
      have hspec := @substituted_spec lookup fallback line
        { e with referenced := note e.referenced (reference body).1 }
        (reference body).1 (reference body).2
      revert hspec
      cases substituted lookup fallback line (reference body).1 (reference body).2
          { e with referenced := note e.referenced (reference body).1 } with
      | error error =>
        rintro ⟨hnone, hline⟩
        rw [hnone]
        exact ⟨rfl, hline⟩
      | ok result =>
        rintro ⟨hvalue, htext⟩
        rw [hvalue]
        cases hsafe : is_structurally_safe result.1 with
        | false =>
          simp only [bind, Except.bind, hsafe, if_true]
          exact ⟨by simp [hsafe], rfl⟩
        | true =>
          simp only [bind, Except.bind, hsafe, Bool.true_eq_false, if_false]
          exact ⟨result.1, by simp [hsafe], by rw [htext]⟩

/-- A reference is read to the first brace, -/
theorem expand_body {read body : Str} (hbody : '}' ∉ body) (code : Str) :
    expand_into lookup fallback line (.body read) (body ++ '}' :: code) e
      = match expand_reference lookup fallback line (read ++ body) e with
        | .ok e => expand_into lookup fallback line .text code e
        | .error error => .error error := by
  induction body generalizing read with
  | nil =>
    rw [List.nil_append, List.append_nil, expand_into]
    exact if_pos rfl
  | cons c body ih =>
    obtain ⟨hc, hbody⟩ := not_or.mp (List.mem_cons.not.mp hbody)
    rw [List.cons_append, expand_into, if_neg (Ne.symm hc), ih hbody, List.append_assoc]
    rfl

/-- and where there is none, it is not closed. -/
theorem expand_unclosed {read rest : Str} (hrest : '}' ∉ rest) :
    expand_into lookup fallback line (.body read) rest e = .error (.Unterminated line) := by
  induction rest generalizing read with
  | nil => rfl
  | cons c rest ih =>
    obtain ⟨hc, hrest⟩ := not_or.mp (List.mem_cons.not.mp hrest)
    rw [expand_into, if_neg (Ne.symm hc), ih hrest]

/-- A dollar sign that neither a dollar sign nor a brace follows is itself. -/
theorem expand_dollar {code : Str} (hnext : ∀ c ∈ code.head?, c ≠ '$' ∧ c ≠ '{') :
    expand_into lookup fallback line .text ('$' :: code) e
      = expand_into lookup fallback line .text code { e with text := e.text ++ ['$'] } := by
  rw [expand_into, if_pos rfl]
  cases code with
  | nil => rfl
  | cons c code =>
    obtain ⟨hdollar, hbrace⟩ := hnext c rfl
    -- The code writes the character behind it in the same step.
    have hpair : expand_into lookup fallback line .dollar (c :: code) e
        = expand_into lookup fallback line .text code { e with text := e.text ++ ['$', c] } := by
      rw [expand_into, if_neg hdollar, if_neg hbrace]
    rw [hpair, expand_into, if_neg hdollar]
    simp

/-- What comes of the expansion of some pieces. -/
def Expands (lookup : Str → Option Str) (fallback : Option (Str → Str)) (line : ℕ)
    (pieces : List Piece) (e : Expansion) : Except InterpolateError Expansion → Prop
  | .ok e' => ∃ values,
      List.Forall₂ (fun piece v => piece.value lookup fallback = some v) pieces values
        ∧ e'.text = e.text ++ values.flatten
  | .error error => (∃ piece ∈ pieces, piece.value lookup fallback = none) ∧ error.line = line

/-- A piece that is written comes before the others. -/
theorem Expands.cons {pieces : List Piece} {e₁ : Expansion} {r : Except InterpolateError Expansion}
    {piece : Piece} {v : Str} (hvalue : piece.value lookup fallback = some v)
    (htext : e₁.text = e.text ++ v) (h : Expands lookup fallback line pieces e₁ r) :
    Expands lookup fallback line (piece :: pieces) e r := by
  cases r with
  | ok e' =>
    obtain ⟨values, hvalues, hadded⟩ := h
    refine ⟨v :: values, .cons hvalue hvalues, ?_⟩
    rw [hadded, htext, List.flatten_cons, List.append_assoc]
  | error error =>
    obtain ⟨⟨failing, hmem, hfails⟩, hline⟩ := h
    exact ⟨⟨failing, List.mem_cons_of_mem piece hmem, hfails⟩, hline⟩

/-- **The code of a line is expanded piece by piece.** -/
theorem expand_into_spec {code : Str} {pieces : List Piece} (h : Reads code pieces) :
    Expands lookup fallback line pieces e (expand_into lookup fallback line .text code e) := by
  induction h generalizing e with
  | nil => exact ⟨[], .nil, (List.append_nil _).symm⟩
  | char hc _ ih =>
    rw [expand_into, if_neg hc]
    exact .cons rfl rfl ih
  | dollar hnext _ ih =>
    rw [expand_dollar hnext]
    exact .cons rfl rfl ih
  | escape _ ih =>
    rw [expand_into, if_pos rfl, expand_into, if_pos rfl]
    exact .cons rfl rfl ih
  | @reference body code pieces hbody _ ih =>
    rw [expand_into, if_pos rfl, expand_into, if_neg (by decide), if_pos rfl, expand_body hbody]
    have hspec := @expand_reference_spec lookup fallback line e body
    rw [List.nil_append]
    revert hspec
    cases expand_reference lookup fallback line body e with
    | ok e₁ =>
      rintro ⟨v, hvalue, htext⟩
      have hpiece : (Piece.reference body).value lookup fallback = some v := hvalue
      exact .cons hpiece htext ih
    | error error =>
      rintro ⟨hnone, hline⟩
      exact ⟨⟨.reference body, List.mem_cons_self, hnone⟩, hline⟩
  | @unclosed read hread =>
    rw [expand_into, if_pos rfl, expand_into, if_neg (by decide), if_pos rfl,
      expand_unclosed hread]
    exact ⟨⟨.unclosed read, List.mem_cons_self, rfl⟩, rfl⟩

/-- What has a value has not failed. -/
theorem value_of_mem {pieces : List Piece} {values : List Str}
    (h : List.Forall₂ (fun piece v => piece.value lookup fallback = some v) pieces values)
    {piece : Piece} (hmem : piece ∈ pieces) :
    ∃ v ∈ values, piece.value lookup fallback = some v := by
  induction h with
  | nil => cases hmem
  | @cons first v pieces values hvalue _ ih =>
    obtain rfl | hmem := List.mem_cons.mp hmem
    · exact ⟨v, List.mem_cons_self, hvalue⟩
    · obtain ⟨u, hu, hsome⟩ := ih hmem
      exact ⟨u, List.mem_cons_of_mem v hu, hsome⟩

/-- A line is written, or it fails. -/
theorem expand_code (parts : Str × Str) :
    match expand_into lookup fallback line .text parts.1 e with
    | .ok e' => ∃ written, Written lookup fallback parts written
        ∧ e'.text ++ parts.2 = e.text ++ written
    | .error error => Fails lookup fallback parts.1 ∧ error.line = line := by
  obtain ⟨pieces, hreads⟩ := Reads.total parts.1
  have hspec := @expand_into_spec lookup fallback line e _ _ hreads
  revert hspec
  cases expand_into lookup fallback line .text parts.1 e with
  | ok e' =>
    rintro ⟨values, hvalues, htext⟩
    refine ⟨_, ⟨pieces, values, hreads, hvalues, rfl⟩, ?_⟩
    rw [htext, List.append_assoc]
  | error error =>
    rintro ⟨⟨piece, hmem, hnone⟩, hline⟩
    exact ⟨⟨pieces, hreads, piece, hmem, hnone⟩, hline⟩

theorem Written.not_fails {parts : Str × Str} {written : Str}
    (h : Written lookup fallback parts written) : ¬ Fails lookup fallback parts.1 := by
  rintro ⟨pieces', hreads', piece, hmem, hnone⟩
  obtain ⟨pieces, values, hreads, hvalues, -⟩ := h
  obtain rfl := hreads.unique hreads'
  obtain ⟨v, -, hsome⟩ := value_of_mem hvalues hmem
  rw [hnone] at hsome
  cases hsome

end Values

/-! ## Lines -/

/-- The block scalar that is open after a line. -/
def next_block (block : Option ℕ) (raw_line : Str) : Option ℕ :=
  let block := block_at block raw_line
  if block.isNone && opens_block_scalar (code_and_comment block raw_line).1 then
    some (indent_of raw_line)
  else block

/-- The lines of a document, each as its code and its comment. -/
def parts : Option ℕ → List Str → List (Str × Str)
  | _, [] => []
  | block, raw_line :: lines =>
    code_and_comment (block_at block raw_line) raw_line :: parts (next_block block raw_line) lines

/-- Nothing of a line is left out. -/
theorem parts_append (block : Option ℕ) (lines : List Str) :
    (parts block lines).map (fun p => p.1 ++ p.2) = lines := by
  induction lines generalizing block with
  | nil => rfl
  | cons raw lines ih => rw [parts, List.map_cons, ih, code_and_comment_append]

/-- The first line with a reference that fails. -/
def FirstFailure (lookup : Str → Option Str) (fallback : Option (Str → Str))
    (lines : List (Str × Str)) (i : ℕ) : Prop :=
  (∃ p, lines[i]? = some p ∧ Fails lookup fallback p.1)
    ∧ ∀ j < i, ∀ p, lines[j]? = some p → ¬ Fails lookup fallback p.1

section Lines

variable {lookup : Str → Option Str} {fallback : Option (Str → Str)}

/-- What comes of the lines of a document. -/
def Processes (lookup : Str → Option Str) (fallback : Option (Str → Str))
    (lines : List (Str × Str)) (line_no : ℕ) (e : Expansion) :
    Except InterpolateError Expansion → Prop
  | .ok e' => ∃ out, List.Forall₂ (Written lookup fallback) lines out
      ∧ e'.text = e.text ++ join '\n' out
  | .error error => ∃ i, FirstFailure lookup fallback lines i ∧ error.line = line_no + i

/-- A line that is written comes before the others. -/
theorem Processes.cons {p : Str × Str} {lines : List (Str × Str)} (hne : lines ≠ [])
    {line_no : ℕ} {e e₁ : Expansion} {r : Except InterpolateError Expansion} {written : Str}
    (hwritten : Written lookup fallback p written) (htext : e₁.text = e.text ++ written ++ ['\n'])
    (h : Processes lookup fallback lines (line_no + 1) e₁ r) :
    Processes lookup fallback (p :: lines) line_no e r := by
  cases r with
  | ok e' =>
    obtain ⟨out, hout, hadded⟩ := h
    -- There are lines to come, so this one is followed by a line break.
    have hout_ne : out ≠ [] := by
      rintro rfl
      exact hne (List.forall₂_nil_right_iff.mp hout)
    refine ⟨written :: out, .cons hwritten hout, ?_⟩
    rw [hadded, htext, join, join, Segments.intercalate_cons_of_ne_nil hout_ne]
    simp
  | error error =>
    obtain ⟨i, ⟨⟨q, hq, hfails⟩, hbefore⟩, hline⟩ := h
    refine ⟨i + 1, ⟨⟨q, hq, hfails⟩, ?_⟩, by omega⟩
    intro j hj q' hq'
    cases j with
    | zero =>
      obtain rfl : p = q' := Option.some.inj hq'
      exact hwritten.not_fails
    | succ j => exact hbefore j (by omega) q' hq'

/-- **The loop**: the lines are written one after the other, up to the first that fails. -/
theorem process_lines_spec {lines : List Str} (hne : lines ≠ []) {line_no : ℕ}
    {block : Option ℕ} {e : Expansion} :
    Processes lookup fallback (parts block lines) line_no e
      (process_lines lookup fallback line_no block lines e) := by
  induction lines generalizing line_no block e with
  | nil => exact absurd rfl hne
  | cons raw lines ih =>
    rw [process_lines, parts]
    dsimp only
    have hcode := @expand_code lookup fallback line_no e (code_and_comment (block_at block raw) raw)
    revert hcode
    cases expand_into lookup fallback line_no .text
        (code_and_comment (block_at block raw) raw).1 e with
    | error error =>
      rintro ⟨hfails, hline⟩
      exact ⟨0, ⟨⟨_, rfl, hfails⟩, fun j hj => absurd hj (Nat.not_lt_zero j)⟩, hline⟩
    | ok e₁ =>
      rintro ⟨written, hwritten, htext⟩
      cases lines with
      | nil =>
        refine ⟨[written], .cons hwritten .nil, ?_⟩
        simpa [join] using htext
      | cons next lines =>
        refine .cons (List.cons_ne_nil _ _) hwritten ?_ (ih (List.cons_ne_nil next lines))
        rw [← htext]
        rfl

/-! ## What is kept of a line -/

theorem filter_flatMap {pieces : List Piece} {values : List Str}
    (h : List.Forall₂ (fun piece v => piece.value lookup fallback = some v) pieces values) :
    (values.flatten.filter is_control).Sublist
      ((pieces.flatMap Piece.source).filter is_control) := by
  induction h with
  | nil => exact List.Sublist.refl _
  | @cons piece v pieces values hvalue _ ih =>
    rw [List.flatten_cons, List.flatMap_cons, List.filter_append, List.filter_append]
    refine List.Sublist.append ?_ ih
    cases piece with
    | char c =>
      cases hvalue
      exact List.Sublist.refl _
    | escape =>
      cases hvalue
      exact List.nil_sublist _
    | reference body =>
      -- A value is only given if it is safe.
      have hsafe : is_structurally_safe v = true := by
        rw [Piece.value, given] at hvalue
        split at hvalue
        · exact (Option.filter_eq_some_iff.mp hvalue).2
        · cases hvalue
      rw [is_structurally_safe, Bool.not_eq_true', List.any_eq_false] at hsafe
      rw [List.filter_eq_nil_iff.mpr hsafe]
      exact List.nil_sublist _
    | unclosed read => cases hvalue

/-- The control characters of a written line are among those of the line, in their order. -/
theorem Written.controls {p : Str × Str} {written : Str} (h : Written lookup fallback p written) :
    (written.filter is_control).Sublist ((p.1 ++ p.2).filter is_control) := by
  obtain ⟨pieces, values, hreads, hvalues, rfl⟩ := h
  rw [List.filter_append, List.filter_append, ← hreads.source_eq]
  exact (filter_flatMap hvalues).append (List.Sublist.refl _)

/-- So no line is broken. -/
theorem Written.unbroken {p : Str × Str} {written : Str} (h : Written lookup fallback p written)
    (hraw : '\n' ∉ p.1 ++ p.2) : '\n' ∉ written := by
  intro hmem
  have hcontrol : '\n' ∈ written.filter is_control :=
    List.mem_filter.mpr ⟨hmem, show is_control '\n' = true by decide⟩
  exact hraw (List.mem_filter.mp (h.controls.subset hcontrol)).1

/-- A line without a dollar sign is written as it is. -/
theorem Written.plain {p : Str × Str} {written : Str} (h : Written lookup fallback p written)
    (hraw : '$' ∉ p.1 ++ p.2) : written = p.1 ++ p.2 := by
  obtain ⟨pieces, values, hreads, hvalues, rfl⟩ := h
  have hcode : '$' ∉ p.1 := fun hmem => hraw (List.mem_append_left _ hmem)
  obtain rfl := hreads.unique (.of_no_dollar hcode)
  rw [List.forall₂_map_left_iff] at hvalues
  have hflat : values.flatten = p.1 := by
    clear hreads hcode hraw
    generalize p.1 = code at hvalues
    induction hvalues with
    | nil => rfl
    | cons hvalue _ ih =>
      cases hvalue
      rw [List.flatten_cons, ih, List.singleton_append]
  rw [hflat]

/-- A line of which nothing is written: there are only references, and what they are given is
empty. -/
def Vanishes (lookup : Str → Option Str) (fallback : Option (Str → Str)) (p : Str × Str) : Prop :=
  p.2 = [] ∧ ∃ bodies : List Str, Reads p.1 (bodies.map .reference)
    ∧ ∀ body ∈ bodies, given lookup fallback body = some []

/-- Pieces that are written as nothing are references. -/
theorem references_of_flatten_nil {pieces : List Piece} {values : List Str}
    (h : List.Forall₂ (fun piece v => piece.value lookup fallback = some v) pieces values)
    (hnil : values.flatten = []) :
    ∃ bodies : List Str, pieces = bodies.map .reference
      ∧ ∀ body ∈ bodies, given lookup fallback body = some [] := by
  induction h with
  | nil => exact ⟨[], rfl, List.forall_mem_nil _⟩
  | @cons piece v pieces values hvalue _ ih =>
    rw [List.flatten_cons, List.append_eq_nil_iff] at hnil
    obtain ⟨rfl, hnil⟩ := hnil
    obtain ⟨bodies, rfl, hgiven⟩ := ih hnil
    cases piece with
    | char c => cases hvalue
    | escape => cases hvalue
    | reference body => exact ⟨body :: bodies, rfl, List.forall_mem_cons.mpr ⟨hvalue, hgiven⟩⟩
    | unclosed read => cases hvalue

theorem Written.eq_nil_iff {p : Str × Str} {written : Str} (h : Written lookup fallback p written) :
    written = [] ↔ Vanishes lookup fallback p := by
  obtain ⟨pieces, values, hreads, hvalues, rfl⟩ := h
  rw [List.append_eq_nil_iff]
  constructor
  · rintro ⟨hnil, hcomment⟩
    obtain ⟨bodies, rfl, hgiven⟩ := references_of_flatten_nil hvalues hnil
    exact ⟨hcomment, bodies, hreads, hgiven⟩
  · rintro ⟨hcomment, bodies, hreads', hgiven⟩
    obtain rfl := hreads.unique hreads'
    refine ⟨?_, hcomment⟩
    rw [List.flatten_eq_nil_iff]
    intro v hv
    -- Each value is that of some reference, and those are empty.
    obtain ⟨i, hi, rfl⟩ := List.getElem_of_mem hv
    have hpiece := (List.forall₂_iff_get.mp hvalues).2 i
      ((List.Forall₂.length_eq hvalues).symm ▸ hi) hi
    simp only [List.get_eq_getElem, List.getElem_map, Piece.value] at hpiece
    rw [hgiven _ (List.getElem_mem _)] at hpiece
    exact (Option.some.inj hpiece).symm

/-! ## What is kept of a document -/

/-- What an expansion keeps of a document, line by line. -/
structure KeepsLines (lookup : Str → Option Str) (fallback : Option (Str → Str))
    (text out : Str) : Prop where
  written : List.Forall₂ (Written lookup fallback) (parts none (split '\n' text)) (split '\n' out)
  breaks : out.count '\n' = text.count '\n'
  /-- The last line break of the output is that of the input, or the last line has vanished. -/
  last : ends_with out ['\n'] = true ↔
    '\n' ∈ text ∧ ∀ p ∈ (parts none (split '\n' text)).getLast?, Vanishes lookup fallback p
  /-- A line without a dollar sign is copied, -/
  plain : ∀ (i : ℕ) (raw : Str), (split '\n' text)[i]? = some raw → '$' ∉ raw →
    (split '\n' out)[i]? = some raw
  /-- and no line has a control character that it had not. -/
  controls : ∀ (i : ℕ) (raw written : Str), (split '\n' text)[i]? = some raw →
    (split '\n' out)[i]? = some written →
    (written.filter is_control).Sublist (raw.filter is_control)

theorem lines_of_getElem {text raw : Str} {i : ℕ} (hraw : (split '\n' text)[i]? = some raw) :
    ∃ p, (parts none (split '\n' text))[i]? = some p ∧ p.1 ++ p.2 = raw := by
  rw [← parts_append none (split '\n' text), List.getElem?_map] at hraw
  exact Option.map_eq_some_iff.mp hraw

/-- Written lines, one beside the other. -/
theorem written_getElem {lines : List (Str × Str)} {out : List Str}
    (h : List.Forall₂ (Written lookup fallback) lines out) {i : ℕ} {p : Str × Str}
    (hp : lines[i]? = some p) : ∃ w, out[i]? = some w ∧ Written lookup fallback p w := by
  obtain ⟨hlength, hget⟩ := List.forall₂_iff_get.mp h
  obtain ⟨hi, rfl⟩ := List.getElem?_eq_some_iff.mp hp
  exact ⟨_, List.getElem?_eq_getElem (hlength ▸ hi), hget i hi (hlength ▸ hi)⟩

/-- The last line is written as nothing exactly if it vanishes. -/
theorem getLast?_eq_nil_iff {lines : List (Str × Str)} {out : List Str}
    (h : List.Forall₂ (Written lookup fallback) lines out) (hne : lines ≠ []) :
    out.getLast? = some [] ↔ ∀ p ∈ lines.getLast?, Vanishes lookup fallback p := by
  rw [← List.forall₂_reverse_iff] at h
  rw [List.getLast?_eq_head?_reverse, List.getLast?_eq_head?_reverse]
  have hne' : lines.reverse ≠ [] := fun hnil => hne (List.reverse_eq_nil_iff.mp hnil)
  generalize lines.reverse = lines' at h hne'
  generalize out.reverse = out' at h
  cases h with
  | nil => exact absurd rfl hne'
  | cons hlast _ => simp [hlast.eq_nil_iff]

/-- **Lines that are written one by one** make a document that keeps its lines. -/
theorem keepsLines_of_written {text out : Str}
    (h : List.Forall₂ (Written lookup fallback) (parts none (split '\n' text)) (split '\n' out)) :
    KeepsLines lookup fallback text out := by
  have hlength : (split '\n' out).length = (split '\n' text).length := by
    rw [← h.length_eq, ← List.length_map (fun p : Str × Str => p.1 ++ p.2), parts_append]
  have hcount : out.count '\n' = text.count '\n' := by
    have hout := @Segments.count_add_one _ '\n' _ out
    have htext := @Segments.count_add_one _ '\n' _ text
    unfold split at hlength
    omega
  have hne : parts none (split '\n' text) ≠ [] := by
    intro hnil
    have hlines := parts_append none (split '\n' text)
    rw [hnil] at hlines
    exact split_ne_nil '\n' text hlines.symm
  refine ⟨h, hcount, ?_, ?_, ?_⟩
  · rw [ends_with_iff, Segments.ends_with_iff, ← List.count_pos_iff, hcount, List.count_pos_iff,
      ← getLast?_eq_nil_iff h hne]
    rfl
  · intro i raw hraw hdollar
    obtain ⟨p, hp, rfl⟩ := lines_of_getElem hraw
    obtain ⟨w, hw, hwritten⟩ := written_getElem h hp
    rw [hw, hwritten.plain hdollar]
  · intro i raw written hraw hwritten
    obtain ⟨p, hp, rfl⟩ := lines_of_getElem hraw
    obtain ⟨w, hw, hcontrols⟩ := written_getElem h hp
    obtain rfl : w = written := Option.some.inj (hw.symm.trans hwritten)
    exact hcontrols.controls

end Lines

/-- **Expansion goes line by line.** Where it succeeds, the output has the lines of the document:
each is written from its own code, piece by piece, and its own comment. Where it fails, the error
names the first line with a reference that fails. -/
theorem expansion_by_lines (lookup : Str → Option Str) (fallback : Option (Str → Str))
    (text : Str) :
    (∀ e, process lookup fallback text = .ok e → KeepsLines lookup fallback text e.text)
      ∧ ∀ error, process lookup fallback text = .error error →
        ∃ i, FirstFailure lookup fallback (parts none (split '\n' text)) i
          ∧ error.line = i + 1 := by
  have hspec := @process_lines_spec lookup fallback _ (split_ne_nil '\n' text) 1 none {}
  have hbreak : ∀ raw ∈ split '\n' text, '\n' ∉ raw :=
    fun raw hraw => Segments.not_mem_of_mem_splitOn hraw
  rw [process_eq, interpolate_with_fallback]
  constructor
  · intro e he
    rw [he] at hspec
    obtain ⟨out, hout, htext⟩ := hspec
    have hlines : split '\n' e.text = out := by
      rw [htext, List.nil_append]
      refine split_join ?_ ?_
      · intro w hw
        obtain ⟨i, hi, rfl⟩ := List.getElem_of_mem hw
        have hi' := (List.Forall₂.length_eq hout).symm ▸ hi
        have hwritten := (List.forall₂_iff_get.mp hout).2 i hi' hi
        refine Written.unbroken hwritten (hbreak _ ?_)
        have hmem := List.mem_map_of_mem (f := fun p : Str × Str => p.1 ++ p.2)
          (List.getElem_mem hi')
        rw [parts_append] at hmem
        exact hmem
      · rintro rfl
        have hlength := List.Forall₂.length_eq hout
        rw [← List.length_map (fun p : Str × Str => p.1 ++ p.2), parts_append] at hlength
        exact split_ne_nil '\n' text (List.length_eq_zero_iff.mp hlength)
    refine keepsLines_of_written ?_
    rw [hlines]
    exact hout
  · intro error herror
    rw [herror] at hspec
    obtain ⟨i, hfirst, hline⟩ := hspec
    exact ⟨i, hfirst, by omega⟩

/-- A default that is written empty takes the last line away, and a dollar sign in a comment is
not one of the code. -/
theorem last_line_vanishes :
    process (fun _ => none) none "a: 1 # $$\n${TAIL:-}".toList
        = .ok { text := "a: 1 # $$\n".toList, referenced := ["TAIL".toList]
                defaulted := ["TAIL".toList] }
      ∧ ends_with "a: 1 # $$\n".toList ['\n'] ≠ ends_with "a: 1 # $$\n${TAIL:-}".toList ['\n'] := by
  decide +kernel

end Lagos.Interpolate
