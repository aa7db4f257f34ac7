import DeclarativeSql.Text.Quoted

/-!
# Tokens of SQL text

A scanner for words, punctuation, quoted identifiers and string literals. Whatever else the server
may meet outside of quotes is refused: the beginning of a comment, of an operator or of a
dollar-quoted text, and a word that changes how the string literal behind it is read. So a text that
is scanned has these tokens for the server as well.
-/
namespace DeclarativeSql.Ddl

inductive Token
  /-- A key word or the name of a type. -/
  | word (text : String)
  | symbol (c : Char)
  | identifier (name : String)
  | literal (text : String)
  deriving DecidableEq

inductive Quotation
  | identifier
  | literal

namespace Quotation

def mark : Quotation → Char
  | identifier => '"'
  | literal => '\x27'

def token : Quotation → String → Token
  | identifier => .identifier
  | literal => .literal

end Quotation

def isWord (c : Char) : Bool := c.isAlphanum || c == '_'

def isWordStart (c : Char) : Bool := c.isAlpha || c == '_'

def punctuation : List Char := ['(', ')', '[', ']', ',', ';']

/-- The character belongs to no token but its own. -/
def isFree (c : Char) : Bool := c == ' ' || punctuation.contains c

/-- Where the scanner stands. -/
inductive Phase
  | outside
  | word (text : List Char)
  | quoted (q : Quotation) (text : List Char)
  /-- A quote was read. It ends the token unless it is doubled. -/
  | closing (q : Quotation) (text : List Char)

/-- The token that is complete once no character goes on with it. -/
def finish : Phase → Option (List Token)
  | .outside => some []
  | .word text => some [.word (String.ofList text)]
  | .quoted _ _ => none
  | .closing q text => some [q.token (String.ofList text)]

/-- Reads a character outside of tokens. -/
def start (c : Char) : Option (List Token × Phase) :=
  if c = ' ' then some ([], .outside)
  else if punctuation.contains c then some ([.symbol c], .outside)
  else if c = '"' then some ([], .quoted .identifier [])
  else if c = '\x27' then some ([], .quoted .literal [])
  else if isWordStart c then some ([], .word [c])
  else none

def step : Phase → Char → Option (List Token × Phase)
  | .outside, c => start c
  | .word text, c =>
    if isWord c then some ([], .word (text ++ [c]))
    else if c = '\x27' then none
    else (start c).map fun s => (.word (String.ofList text) :: s.1, s.2)
  | .quoted q text, c =>
    if c = q.mark then some ([], .closing q text) else some ([], .quoted q (text ++ [c]))
  | .closing q text, c =>
    if c = q.mark then some ([], .quoted q (text ++ [c]))
    else (start c).map fun s => (q.token (String.ofList text) :: s.1, s.2)

def run (phase : Phase) : List Char → Option (List Token)
  | [] => finish phase
  | c :: rest =>
    match step phase c with
    | none => none
    | some (ts, next) => (run next rest).map (ts ++ ·)

/-- The tokens of a text. -/
def scan (text : String) : Option (List Token) := run .outside text.toList

theorem run_cons_of_step {phase next : Phase} {c : Char} {ts : List Token}
    (h : step phase c = some (ts, next)) (rest : List Char) :
    run phase (c :: rest) = (run next rest).map (ts ++ ·) := by
  simp only [run, h]

theorem mem_of_isFree {c : Char} (h : isFree c = true) : c ∈ ' ' :: punctuation := by
  simpa [isFree] using h

theorem ne_mark_of_isFree {c : Char} (h : isFree c = true) (q : Quotation) : c ≠ q.mark := by
  rintro rfl
  cases q <;> exact absurd h (by decide)

theorem isWord_of_isFree {c : Char} (h : isFree c = true) : isWord c = false := by
  have hfree : (' ' :: punctuation).all (fun x => !isWord x) = true := by decide
  simpa using List.all_eq_true.mp hfree c (mem_of_isFree h)

theorem start_of_isFree {c : Char} (h : isFree c = true) :
    ∃ ts, start c = some (ts, .outside) := by
  have hmem := mem_of_isFree h
  unfold start
  by_cases hblank : c = ' '
  · exact ⟨_, if_pos hblank⟩
  · have hcontains : punctuation.contains c = true := by
      simpa [hblank] using hmem
    rw [if_neg hblank, if_pos hcontains]
    exact ⟨_, rfl⟩

/-- A free character ends the token that stands in front of it. -/
theorem step_of_isFree {phase : Phase} {ts us : List Token} {c : Char} (hc : isFree c = true)
    (hfinish : finish phase = some ts) (hstart : start c = some (us, .outside)) :
    step phase c = some (ts ++ us, .outside) := by
  cases phase with
  | outside =>
    cases hfinish
    exact hstart
  | word text =>
    cases hfinish
    have hword := isWord_of_isFree hc
    have hquote : c ≠ '\x27' := ne_mark_of_isFree hc .literal
    simp [step, hword, hquote, hstart]
  | quoted q text => cases hfinish
  | closing q text =>
    cases hfinish
    simp [step, ne_mark_of_isFree hc q, hstart]

theorem run_append_cons {c : Char} (hc : isFree c = true) {ys : List Char} {us : List Token}
    (hy : run .outside (c :: ys) = some us) : ∀ {xs : List Char} {phase : Phase} {ts : List Token},
    run phase xs = some ts → run phase (xs ++ c :: ys) = some (ts ++ us) := by
  obtain ⟨vs, hstart⟩ := start_of_isFree hc
  intro xs
  induction xs with
  | nil =>
    intro phase ts hx
    have houtside : step .outside c = some (vs, .outside) := hstart
    rw [run_cons_of_step houtside] at hy
    rw [List.nil_append, run_cons_of_step (step_of_isFree hc hx hstart)]
    obtain ⟨ws, hws, rfl⟩ := Option.map_eq_some_iff.mp hy
    rw [hws, Option.map_some, List.append_assoc]
  | cons x xs ih =>
    intro phase ts hx
    unfold run at hx
    split at hx
    next => cases hx
    next vs next hstep =>
      obtain ⟨ws, hws, rfl⟩ := Option.map_eq_some_iff.mp hx
      rw [List.cons_append, run_cons_of_step hstep, ih hws, Option.map_some, List.append_assoc]

/-- After a free character that is not quoted the scanner stands outside of tokens. -/
theorem run_concat_append {c : Char} (hc : isFree c = true) {ys : List Char} {us : List Token}
    (hy : run .outside ys = some us) : ∀ {xs : List Char} {phase : Phase} {ts : List Token},
    run phase (xs ++ [c]) = some ts → run phase (xs ++ c :: ys) = some (ts ++ us) := by
  obtain ⟨vs, hstart⟩ := start_of_isFree hc
  intro xs
  induction xs with
  | nil =>
    intro phase ts hx
    cases hfinish : finish phase with
    | none =>
      -- only quoted text has no end yet, and the character does not end it either
      cases phase with
      | quoted q text => simp [run, step, ne_mark_of_isFree hc q, finish] at hx
      | outside => cases hfinish
      | word text => cases hfinish
      | closing q text => cases hfinish
    | some ws =>
      have hstep := step_of_isFree hc hfinish hstart
      rw [List.nil_append, run_cons_of_step hstep] at hx ⊢
      obtain rfl : ws ++ vs = ts := by simpa [run, finish] using hx
      rw [hy, Option.map_some]
  | cons x xs ih =>
    intro phase ts hx
    rw [List.cons_append] at hx
    unfold run at hx
    split at hx
    next => cases hx
    next vs next hstep =>
      obtain ⟨ws, hws, rfl⟩ := Option.map_eq_some_iff.mp hx
      rw [List.cons_append, run_cons_of_step hstep, ih hws, Option.map_some, List.append_assoc]

/-- Nothing in front of the text reaches into it. -/
def opens (text : String) : Bool := text.toList.head?.all isFree

/-- The text reaches into nothing behind it. -/
def closes (text : String) : Bool := text.toList.getLast?.all isFree

theorem opens_append {s t : String} (hs : opens s = true) (ht : opens t = true) :
    opens (s ++ t) = true := by
  unfold opens at *
  rw [String.toList_append, List.head?_append]
  cases h : s.toList.head? with
  | none => exact ht
  | some d => rwa [h] at hs

theorem opens_append_of_ne_empty {s : String} (hs : opens s = true) (hne : s ≠ "") (t : String) :
    opens (s ++ t) = true := by
  unfold opens at *
  rw [String.toList_append, List.head?_append]
  cases h : s.toList.head? with
  | none => exact absurd (String.toList_eq_nil_iff.mp (List.head?_eq_none_iff.mp h)) hne
  | some d => rwa [h] at hs

theorem scan_append {s t : String} {ts us : List Token} (hs : scan s = some ts)
    (ht : scan t = some us) (h : closes s = true ∨ opens t = true) :
    scan (s ++ t) = some (ts ++ us) := by
  unfold scan at *
  rw [String.toList_append]
  rcases h with h | h
  · rcases List.eq_nil_or_concat s.toList with hnil | ⟨xs, c, hxs⟩
    · rw [hnil] at hs ⊢
      cases hs
      exact ht
    · have hc : isFree c = true := by simpa [closes, hxs] using h
      rw [hxs, List.concat_eq_append] at hs ⊢
      rw [List.append_assoc, List.singleton_append]
      exact run_concat_append hc ht hs
  · cases hys : t.toList with
    | nil =>
      rw [hys] at ht
      cases ht
      rw [List.append_nil, List.append_nil, hs]
    | cons c ys =>
      have hc : isFree c = true := by simpa [opens, hys] using h
      rw [hys] at ht
      exact run_append_cons hc ht hs

theorem run_quoted (q : Quotation) (s rest text : List Char) :
    run (.quoted q text) (Quoted.doubled q.mark s ++ q.mark :: rest) =
      run (.closing q (text ++ s)) rest := by
  have hstep : ∀ {phase next : Phase} {c : Char}, step phase c = some ([], next) →
      ∀ rest, run phase (c :: rest) = run next rest := by
    intro phase next c h rest
    rw [run_cons_of_step h]
    simp
  induction s generalizing text with
  | nil =>
    have hclose : step (.quoted q text) q.mark = some ([], .closing q text) := if_pos rfl
    rw [Quoted.doubled, List.nil_append, hstep hclose, List.append_nil]
  | cons c s ih =>
    have happend : text ++ c :: s = (text ++ [c]) ++ s := by simp
    by_cases hc : c = q.mark
    · have hfirst : step (.quoted q text) c = some ([], .closing q text) := if_pos hc
      have hsecond : step (.closing q text) c = some ([], .quoted q (text ++ [c])) := if_pos hc
      rw [Quoted.doubled, if_pos hc, List.cons_append, List.cons_append, hstep hfirst,
        hstep hsecond, ih, happend]
    · have hnext : step (.quoted q text) c = some ([], .quoted q (text ++ [c])) := if_neg hc
      rw [Quoted.doubled, if_neg hc, List.cons_append, hstep hnext, ih, happend]

theorem scan_quote (q : Quotation) (s : String) :
    scan (Quoted.quote q.mark s) = some [q.token s] := by
  have hstart : step .outside q.mark = some ([], .quoted q []) := by cases q <;> rfl
  rw [scan, Quoted.toList_quote, run_cons_of_step hstart, run_quoted]
  simp [run, finish]

theorem scan_identifier (name : String) :
    scan (Quoted.identifier name) = some [.identifier name] := scan_quote .identifier name

theorem scan_literal (text : String) : scan (Quoted.literal text) = some [.literal text] :=
  scan_quote .literal text

end DeclarativeSql.Ddl
