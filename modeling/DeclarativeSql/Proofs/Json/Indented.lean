import DeclarativeSql.Json.Reader
import DeclarativeSql.Json.Writer
import Mathlib.Data.List.TakeWhile
import Mathlib.Tactic.IntervalCases

/-!
# Reading indented JSON back

The indented text of a value splits into the tokens of the value, blanks aside, and these tokens
build the value again. Decimals, which are rounded, and values that went wrong stay out.
-/
namespace DeclarativeSql.Json

mutual

/-- The text of the value holds all of it. -/
def IsExact : Json → Prop
  | null => True
  | bool _ => True
  | integer n => -2 ^ 63 ≤ n ∧ n < 2 ^ 64
  | string _ => True
  | array items => ItemsExact items
  | object fields => FieldsExact fields
  | _ => False

def ItemsExact : List Json → Prop
  | [] => True
  | v :: rest => v.IsExact ∧ ItemsExact rest

def FieldsExact : List (String × Json) → Prop
  | [] => True
  | (_, v) :: rest => v.IsExact ∧ FieldsExact rest

end

mutual

def tokens : Json → List Token
  | array items => .openArray :: (itemTokens items ++ [.closeArray])
  | object fields => .openObject :: (fieldTokens fields ++ [.closeObject])
  | v => [.literal v]

def itemTokens : List Json → List Token
  | [] => []
  | [v] => v.tokens
  | v :: w :: rest => v.tokens ++ .comma :: itemTokens (w :: rest)

def fieldTokens : List (String × Json) → List Token
  | [] => []
  | [(k, v)] => .literal (.string k) :: .colon :: v.tokens
  | (k, v) :: w :: rest =>
    .literal (.string k) :: .colon :: (v.tokens ++ .comma :: fieldTokens (w :: rest))

end

theorem itemsExact_iff {items : List Json} : ItemsExact items ↔ ∀ v ∈ items, v.IsExact := by
  induction items with
  | nil => simp [ItemsExact]
  | cons v items ih => simp [ItemsExact, ih]

theorem fieldsExact_iff {fields : List (String × Json)} :
    FieldsExact fields ↔ ∀ f ∈ fields, f.2.IsExact := by
  induction fields with
  | nil => simp [FieldsExact]
  | cons f fields ih => simp [FieldsExact, ih]

theorem isExact_array {items : List Json} (h : ∀ v ∈ items, v.IsExact) : (array items).IsExact :=
  itemsExact_iff.mpr h

theorem isExact_object {fields : List (String × Json)} (h : ∀ f ∈ fields, f.2.IsExact) :
    (object fields).IsExact := fieldsExact_iff.mpr h

/-- Tokens in front of the result of splitting the rest of a text. -/
def prepend (ts : List Token) (result : List Token × Bool) : List Token × Bool :=
  (ts ++ result.1, result.2)

@[simp] theorem prepend_nil (r : List Token × Bool) : prepend [] r = r := rfl

@[simp] theorem prepend_prepend (ts us : List Token) (r : List Token × Bool) :
    prepend ts (prepend us r) = prepend (ts ++ us) r := by
  simp [prepend]

theorem lexFrom_cons_of_step {mode next : Mode} {c : Char} {ts : List Token}
    (h : step mode c = some (ts, next)) (rest : List Char) :
    lexFrom mode (c :: rest) = prepend ts (lexFrom next rest) := by
  rw [lexFrom, h]
  rfl

theorem lexFrom_start {next : Mode} {c : Char} {ts : List Token}
    (h : start c = some (ts, next)) (rest : List Char) :
    lexFrom .between (c :: rest) = prepend ts (lexFrom next rest) :=
  lexFrom_cons_of_step (show step .between c = some (ts, next) from h) rest

theorem lexFrom_blank {c : Char} (h : isJsonBlank c = true) (rest : List Char) :
    lexFrom .between (c :: rest) = lexFrom .between rest := by
  have hstart : start c = some ([], .between) := by simp [start, h]
  exact lexFrom_start hstart rest

theorem lexFrom_newline (depth : Nat) (rest : List Char) :
    lexFrom .between ((newline depth).toList ++ rest) = lexFrom .between rest := by
  have hspaces : ∀ n, lexFrom .between (List.replicate n ' ' ++ rest) = lexFrom .between rest := by
    intro n
    induction n with
    | zero => rfl
    | succ n ih => rw [List.replicate_succ, List.cons_append, lexFrom_blank rfl, ih]
  rw [newline, String.toList_ofList, List.cons_append, lexFrom_blank rfl, hspaces]

/-- What may stand behind a word or a number. -/
def EndsWord (rest : List Char) : Prop := ∀ c ∈ rest.head?, c = ',' ∨ c = '\n'

/-- A token that grows by one character after the other is done where the text or the line ends. -/
theorem lexFrom_growing {mode : List Char → Mode} {c : Char} {cs rest : List Char} {v : Json}
    (hstart : start c = some ([], mode [c]))
    (hgrow : ∀ front, ∀ d ∈ cs, step (mode front) d = some ([], mode (d :: front)))
    (hstop : ∀ front, ∀ d, d = ',' ∨ d = '\n' → step (mode front) d = startAfter (mode front) d)
    (hdone : finish (mode (c :: cs).reverse) = some [.literal v]) (hr : EndsWord rest) :
    lexFrom .between (c :: cs ++ rest) = prepend [.literal v] (lexFrom .between rest) := by
  have hcs : ∀ front, lexFrom (mode front) (cs ++ rest) =
      lexFrom (mode (cs.reverse ++ front)) rest := by
    clear hdone
    induction cs with
    | nil => exact fun _ => rfl
    | cons d cs ih =>
      intro front
      rw [List.cons_append, lexFrom_cons_of_step (hgrow front d (by simp)), prepend_nil,
        ih fun front e he => hgrow front e (by simp [he])]
      simp
  rw [List.cons_append, lexFrom_start hstart, prepend_nil, hcs, ← List.reverse_cons]
  cases rest with
  | nil => rw [lexFrom, hdone]; rfl
  | cons d rest =>
    have hd := hr d rfl
    obtain ⟨ts, next, hnext⟩ : ∃ ts next, start d = some (ts, next) := by
      rcases hd with rfl | rfl <;> exact ⟨_, _, rfl⟩
    have hafter : step (mode (c :: cs).reverse) d = some (.literal v :: ts, next) := by
      simp only [hstop _ d hd, startAfter, hdone, hnext]
      rfl
    rw [lexFrom_cons_of_step hafter, lexFrom_start hnext, prepend_prepend]
    rfl

theorem lexFrom_word {c : Char} (cs : List Char) {rest : List Char} {v : Json}
    (hstart : start c = some ([], .word [c])) (h : ∀ d ∈ cs, d.isAlpha = true)
    (hv : wordValue? (c :: cs) = some v) (hr : EndsWord rest) :
    lexFrom .between (c :: cs ++ rest) = prepend [.literal v] (lexFrom .between rest) := by
  refine lexFrom_growing hstart (fun front d hd => by simp [step, h d hd]) ?_
    (by simp [finish, hv]) hr
  rintro front d (rfl | rfl) <;> rfl

theorem lexFrom_number {c : Char} {cs rest : List Char} {v : Json}
    (hstart : start c = some ([], .number [c])) (h : ∀ d ∈ cs, isNumeric d = true)
    (hv : number? (c :: cs) = some v) (hr : EndsWord rest) :
    lexFrom .between (c :: cs ++ rest) = prepend [.literal v] (lexFrom .between rest) := by
  refine lexFrom_growing hstart (fun front d hd => by simp [step, h d hd]) ?_
    (by simp [finish, hv]) hr
  rintro front d (rfl | rfl) <;> rfl

theorem digitsValue_toDigits (n : Nat) : digitsValue (Nat.toDigits 10 n) = n :=
  Nat.ofDigitChars_ten_toDigits

theorem isDigit_of_mem_toDigits {n : Nat} : ∀ c ∈ Nat.toDigits 10 n, c.isDigit = true :=
  fun _ => Nat.isDigit_of_mem_toDigits (by decide) (by decide)

theorem head?_toDigits_ne {n : Nat} (h : 0 < n) : (Nat.toDigits 10 n).head? ≠ some '0' := by
  induction n using Nat.strongRecOn with
  | ind n ih =>
    rcases Nat.lt_or_ge n 10 with hn | hn
    · rw [Nat.toDigits_of_lt_base hn]
      have : ∀ k < 10, 0 < k → [Nat.digitChar k].head? ≠ some '0' := by decide
      exact this n hn h
    · rw [Nat.toDigits_of_base_le (by decide) hn, List.head?_append,
        List.head?_eq_some_head Nat.toDigits_ne_nil, Option.some_or, ← List.head?_eq_some_head]
      exact ih (n / 10) (by omega) (by omega)

theorem number?_of_digits {c : Char} {cs : List Char} (hd : ∀ d ∈ c :: cs, d.isDigit = true)
    (hzero : c = '0' → cs = []) (negative : Bool) :
    number? (if negative then '-' :: c :: cs else c :: cs) =
      some (integerOf negative (c :: cs)) := by
  have htake : (c :: cs).takeWhile Char.isDigit = c :: cs := List.takeWhile_eq_self_iff.mpr hd
  have hdrop : (c :: cs).dropWhile Char.isDigit = [] := List.dropWhile_eq_nil_iff.mpr hd
  have hsign : c ≠ '-' := by
    rintro rfl
    exact absurd (hd '-' (by simp)) (by decide)
  cases negative <;> simpa [number?, htake, hdrop, hsign] using hzero

theorem number?_toDigits (negative : Bool) (n : Nat) :
    number? (if negative then '-' :: Nat.toDigits 10 n else Nat.toDigits 10 n) =
      some (integerOf negative (Nat.toDigits 10 n)) := by
  obtain ⟨c, cs, h⟩ := List.exists_cons_of_ne_nil (Nat.toDigits_ne_nil (n := n) (b := 10))
  have hd := isDigit_of_mem_toDigits (n := n)
  rw [h] at hd ⊢
  refine number?_of_digits hd ?_ negative
  rintro rfl
  rcases Nat.eq_zero_or_pos n with rfl | hn
  · simpa using h.symm
  · exact absurd (by rw [h]; rfl) (head?_toDigits_ne hn)

theorem start_of_isDigit {c : Char} (h : c.isDigit = true) : start c = some ([], .number [c]) := by
  have hc : 48 ≤ c.toNat ∧ c.toNat ≤ 57 := by
    simpa [Char.isDigit, UInt32.le_iff_toNat_le] using h
  rw [← Char.ofNat_toNat c]
  obtain ⟨hl, hu⟩ := hc
  generalize c.toNat = n at hl hu
  interval_cases n <;> rfl

theorem toList_toString_of_nonneg {n : Int} (h : 0 ≤ n) :
    (toString n).toList = Nat.toDigits 10 n.toNat := by
  rw [Int.toString_eq_repr, Int.repr_eq_if, if_pos h, Nat.toList_repr]

theorem toList_toString_of_neg {n : Int} (h : n < 0) :
    (toString n).toList = '-' :: Nat.toDigits 10 (-n).toNat := by
  rw [Int.toString_eq_repr, Int.repr_eq_if, if_neg (by omega), String.toList_append,
    Nat.toList_repr]
  rfl

theorem lexFrom_integer {n : Int} (h : -2 ^ 63 ≤ n ∧ n < 2 ^ 64) {rest : List Char}
    (hr : EndsWord rest) :
    lexFrom .between ((toString n).toList ++ rest) =
      prepend [.literal (.integer n)] (lexFrom .between rest) := by
  have hnumeric : ∀ m : Nat, ∀ d ∈ Nat.toDigits 10 m, isNumeric d = true := fun m d hd => by
    simp [isNumeric, isDigit_of_mem_toDigits d hd]
  rcases lt_or_ge n 0 with hn | hn
  · rw [toList_toString_of_neg hn]
    refine lexFrom_number rfl (hnumeric _) ((number?_toDigits true _).trans ?_) hr
    have hm : 0 < (-n).toNat ∧ (-n).toNat ≤ Nat.pow 2 63 := by
      norm_num
      omega
    simp only [integerOf, digitsValue_toDigits, if_true, decide_eq_true hm.1, decide_eq_true hm.2,
      Bool.and_self]
    rw [Int.toNat_of_nonneg (by omega), neg_neg]
  · rw [toList_toString_of_nonneg hn]
    have hv := number?_toDigits false n.toNat
    obtain ⟨c, cs, hcs⟩ := List.exists_cons_of_ne_nil (Nat.toDigits_ne_nil (n := n.toNat) (b := 10))
    have hd := isDigit_of_mem_toDigits (n := n.toNat)
    have hall := hnumeric n.toNat
    rw [integerOf, digitsValue_toDigits] at hv
    rw [hcs] at hd hall hv ⊢
    refine lexFrom_number (start_of_isDigit (hd c (by simp))) (fun d h => hall d (by simp [h]))
      (hv.trans ?_) hr
    have hm : n.toNat < UInt64.size := by
      have : UInt64.size = 2 ^ 64 := rfl
      omega
    simp [hm, hn]

theorem hexValue?_hexDigit {n : Nat} (h : n < 16) : hexValue? (hexDigit n) = some n := by
  interval_cases n <;> rfl

/-- A control character is spelled by its number in four hexadecimal digits. -/
theorem lexFrom_unit (front : List Char) {c : Char} (hc : c.toNat < 32) (rest : List Char) :
    lexFrom (.text ⟨front, false⟩)
        ('\\' :: 'u' :: '0' :: '0' :: hexDigit (c.toNat / 16) :: hexDigit (c.toNat % 16) :: rest) =
      lexFrom (.text ⟨c :: front, false⟩) rest := by
  have hhigh : hexValue? (hexDigit (c.toNat / 16)) = some (c.toNat / 16) :=
    hexValue?_hexDigit (by omega)
  have hlow : hexValue? (hexDigit (c.toNat % 16)) = some (c.toNat % 16) :=
    hexValue?_hexDigit (by omega)
  have hvalue : 16 * (c.toNat / 16) + c.toNat % 16 = c.toNat := Nat.div_add_mod _ _
  have hwhole : isLeading c.toNat = false ∧ isTrailing c.toNat = false := by
    simp only [isLeading, isTrailing, Bool.and_eq_false_iff, decide_eq_false_iff_not]
    omega
  have hclose : closeUnit ⟨front, false⟩ none c.toNat = .text ⟨c :: front, false⟩ := by
    simp [closeUnit, hwhole, Text.push]
  have hzeros : lexFrom (.text ⟨front, false⟩)
      ('\\' :: 'u' :: '0' :: '0' :: hexDigit (c.toNat / 16) :: hexDigit (c.toNat % 16) :: rest) =
        lexFrom (.unit ⟨front, false⟩ none 0 2)
          (hexDigit (c.toNat / 16) :: hexDigit (c.toNat % 16) :: rest) := rfl
  have hstep : step (.unit ⟨front, false⟩ none 0 2) (hexDigit (c.toNat / 16)) =
      some ([], .unit ⟨front, false⟩ none (c.toNat / 16) 3) := by
    simp [step, hhigh]
  have hlast : step (.unit ⟨front, false⟩ none (c.toNat / 16) 3) (hexDigit (c.toNat % 16)) =
      some ([], .text ⟨c :: front, false⟩) := by
    simp [step, hlow, hvalue, hclose]
  rw [hzeros, lexFrom_cons_of_step hstep, lexFrom_cons_of_step hlast, prepend_nil, prepend_nil]

theorem lexFrom_escaped (front : List Char) (c : Char) (rest : List Char) :
    lexFrom (.text ⟨front, false⟩) (escaped c ++ rest) =
      lexFrom (.text ⟨c :: front, false⟩) rest := by
  unfold escaped
  split
  case h_8 =>
    split
    next hc => exact lexFrom_unit front hc rest
    next hquote hslash _ _ _ _ _ hc =>
      have hstep : step (.text ⟨front, false⟩) c = some ([], .text ⟨c :: front, false⟩) := by
        simp only [step, inText, if_neg hquote, if_neg hslash, if_neg hc, Text.push]
      rw [List.singleton_append, lexFrom_cons_of_step hstep, prepend_nil]
  all_goals rfl

theorem lexFrom_quoted (s : String) (rest : List Char) :
    lexFrom .between ((quoted s).toList ++ rest) =
      prepend [.literal (.string s)] (lexFrom .between rest) := by
  have htext : ∀ (cs front : List Char),
      lexFrom (.text ⟨front, false⟩) (cs.flatMap escaped ++ '"' :: rest) =
        prepend [.literal (.string (String.ofList (front.reverse ++ cs)))]
          (lexFrom .between rest) := by
    intro cs
    induction cs with
    | nil =>
      intro front
      rw [List.append_nil]
      exact lexFrom_cons_of_step rfl rest
    | cons c cs ih =>
      intro front
      rw [List.flatMap_cons, List.append_assoc, lexFrom_escaped, ih]
      simp
  have hopen : start '"' = some ([], .text .empty) := rfl
  rw [quoted, String.toList_ofList, List.cons_append, lexFrom_start hopen, prepend_nil,
    List.append_assoc]
  refine (htext s.toList []).trans ?_
  simp

/-- In front of the end of a line, the text is split into these tokens. -/
def SplitsInto (text : String) (ts : List Token) : Prop :=
  ∀ rest, EndsWord rest →
    lexFrom .between (text.toList ++ rest) = prepend ts (lexFrom .between rest)

theorem splitsInto_atom : ∀ {v : Json}, v.IsExact → v.tokens = [.literal v] →
    SplitsInto v.atom [.literal v]
  | .null, _, _ => fun _ hr =>
    lexFrom_word "ull".toList rfl (List.all_eq_true.mp (by decide)) rfl hr
  | .bool true, _, _ => fun _ hr =>
    lexFrom_word "rue".toList rfl (List.all_eq_true.mp (by decide)) rfl hr
  | .bool false, _, _ => fun _ hr =>
    lexFrom_word "alse".toList rfl (List.all_eq_true.mp (by decide)) rfl hr
  | .integer _, h, _ => fun _ hr => lexFrom_integer h hr
  | .string s, _, _ => fun rest _ => lexFrom_quoted s rest

namespace SplitsInto

variable {line : String} {lines : List String} {depth : Nat} {ts us : List Token}

/-- The lines between brackets are split on their own. -/
theorem block {opening closing : String} {c d : Char} {first last : Token}
    (hopening : opening.toList = [c]) (hclosing : closing.toList = [d])
    (hc : start c = some ([first], .between)) (hd : start d = some ([last], .between))
    (hempty : lines = [] → ts = [])
    (hlines : SplitsInto (String.intercalate ("," ++ newline (depth + 1)) lines) ts) :
    SplitsInto (Json.block opening closing depth lines) (first :: (ts ++ [last])) := by
  intro rest _
  unfold Json.block
  cases lines with
  | nil =>
    simp [hopening, hclosing, lexFrom_start hc, lexFrom_start hd, hempty rfl]
  | cons line lines =>
    have hends : EndsWord ((newline depth).toList ++ d :: rest) := by simp [EndsWord, newline]
    simp only [List.isEmpty_cons, Bool.false_eq_true, if_false, String.toList_append, hopening,
      hclosing, List.append_assoc, List.cons_append, List.nil_append]
    rw [lexFrom_start hc, lexFrom_newline, hlines _ hends, lexFrom_newline, lexFrom_start hd]
    simp

theorem cons (hline : SplitsInto line ts) (hne : lines ≠ [])
    (hlines : SplitsInto (String.intercalate ("," ++ newline depth) lines) us) :
    SplitsInto (String.intercalate ("," ++ newline depth) (line :: lines))
      (ts ++ .comma :: us) := by
  intro rest hr
  obtain ⟨other, lines, rfl⟩ := List.exists_cons_of_ne_nil hne
  have hcomma : ",".toList = [','] := rfl
  have hstart : start ',' = some ([.comma], .between) := rfl
  have hends : ∀ more, EndsWord (',' :: more) := by simp [EndsWord]
  rw [String.intercalate_cons_cons]
  simp only [String.toList_append, List.append_assoc, hcomma, List.cons_append, List.nil_append]
  rw [hline _ (hends _), lexFrom_start hstart, lexFrom_newline, hlines _ hr]
  simp

theorem field {text : String} (h : SplitsInto text ts) (key : String) :
    SplitsInto (quoted key ++ ": " ++ text) (.literal (.string key) :: .colon :: ts) := by
  intro rest hr
  have hcolon : ": ".toList = [':', ' '] := rfl
  have hstart : start ':' = some ([.colon], .between) := rfl
  simp only [String.toList_append, List.append_assoc, hcolon, List.cons_append, List.nil_append]
  rw [lexFrom_quoted, lexFrom_start hstart, lexFrom_blank rfl, h _ hr]
  simp

end SplitsInto

mutual

theorem splitsInto_indentedAt : ∀ (v : Json), v.IsExact → ∀ depth,
    SplitsInto (v.indentedAt depth) v.tokens
  | .null, h, _ => splitsInto_atom h rfl
  | .bool _, h, _ => splitsInto_atom h rfl
  | .integer _, h, _ => splitsInto_atom h rfl
  | .string _, h, _ => splitsInto_atom h rfl
  | .array items, h, depth =>
    .block rfl rfl rfl rfl
      (fun hempty => by cases items with
        | nil => rfl
        | cons => cases hempty)
      (splitsInto_indentedItems items h (depth + 1))
  | .object fields, h, depth =>
    .block rfl rfl rfl rfl
      (fun hempty => by cases fields with
        | nil => rfl
        | cons => cases hempty)
      (splitsInto_indentedFields fields h (depth + 1))

theorem splitsInto_indentedItems : ∀ (items : List Json), ItemsExact items → ∀ depth,
    SplitsInto (String.intercalate ("," ++ newline depth) (indentedItems depth items))
      (itemTokens items)
  | [], _, _ => fun _ _ => rfl
  | [v], h, depth => splitsInto_indentedAt v h.1 depth
  | v :: w :: rest, h, depth =>
    (splitsInto_indentedAt v h.1 depth).cons (by simp [indentedItems])
      (splitsInto_indentedItems (w :: rest) h.2 depth)

theorem splitsInto_indentedFields : ∀ (fields : List (String × Json)), FieldsExact fields →
    ∀ depth,
      SplitsInto (String.intercalate ("," ++ newline depth) (indentedFields depth fields))
        (fieldTokens fields)
  | [], _, _ => fun _ _ => rfl
  | [(k, v)], h, depth => (splitsInto_indentedAt v h.1 depth).field k
  | (k, v) :: w :: rest, h, depth =>
    ((splitsInto_indentedAt v h.1 depth).field k).cons (by simp [indentedFields])
      (splitsInto_indentedFields (w :: rest) h.2 depth)

end

mutual

/-- The tokens of a value are taken in as the value. -/
theorem run_tokens : ∀ (v : Json), v.IsExact → ∀ (stack : List Frame) (e : Expecting),
    e = .value ∨ e = .firstItem → ∀ (ok : Bool) (ts : List Token),
      (⟨stack, e, none⟩ : ReaderState).run ok (v.tokens ++ ts) =
        (ReaderState.accept stack v).run ok ts
  | .null, _, _, _, he, _, _ => by rcases he with rfl | rfl <;> rfl
  | .bool _, _, _, _, he, _, _ => by rcases he with rfl | rfl <;> rfl
  | .integer _, _, _, _, he, _, _ => by rcases he with rfl | rfl <;> rfl
  | .string _, _, _, _, he, _, _ => by rcases he with rfl | rfl <;> rfl
  | .array items, h, stack, e, he, ok, ts => by
    have hopen : (⟨stack, e, none⟩ : ReaderState).run ok ((Json.array items).tokens ++ ts) =
        (⟨.array [] :: stack, .firstItem, none⟩ : ReaderState).run ok
          (itemTokens items ++ .closeArray :: ts) := by
      rcases he with rfl | rfl <;> simp [tokens, ReaderState.run, ReaderState.step,
        ReaderState.openValue]
    rw [hopen]
    cases items with
    | nil => rfl
    | cons v rest =>
      exact run_itemTokens (v :: rest) h (by simp) stack [] .firstItem (.inr rfl) ok ts
  | .object fields, h, stack, e, he, ok, ts => by
    have hopen : (⟨stack, e, none⟩ : ReaderState).run ok ((Json.object fields).tokens ++ ts) =
        (⟨.object [] "" false :: stack, .firstKey, none⟩ : ReaderState).run ok
          (fieldTokens fields ++ .closeObject :: ts) := by
      rcases he with rfl | rfl <;> simp [tokens, ReaderState.run, ReaderState.step,
        ReaderState.openValue]
    rw [hopen]
    cases fields with
    | nil => rfl
    | cons f rest =>
      exact run_fieldTokens (f :: rest) h (by simp) stack [] "" .firstKey (.inr rfl) ok ts

theorem run_itemTokens : ∀ (items : List Json), ItemsExact items → items ≠ [] →
    ∀ (stack : List Frame) (front : List Json) (e : Expecting), e = .value ∨ e = .firstItem →
      ∀ (ok : Bool) (ts : List Token),
        (⟨.array front :: stack, e, none⟩ : ReaderState).run ok
            (itemTokens items ++ .closeArray :: ts) =
          (ReaderState.accept stack (.array (front.reverse ++ items))).run ok ts
  | [], _, hne, _, _, _, _, _, _ => absurd rfl hne
  | [v], h, _, stack, front, e, he, ok, ts => by
    rw [itemTokens, run_tokens v h.1 _ e he]
    simp [ReaderState.accept, ReaderState.run, ReaderState.step, ReaderState.closeArray, Frame.add,
      Frame.close]
  | v :: w :: rest, h, _, stack, front, e, he, ok, ts => by
    have hnext := run_itemTokens (w :: rest) h.2 (by simp) stack (v :: front) .value (.inl rfl)
      ok ts
    rw [itemTokens, List.append_assoc, run_tokens v h.1 _ e he]
    refine Eq.trans ?_ (hnext.trans (by simp))
    rfl

theorem run_fieldTokens : ∀ (fields : List (String × Json)), FieldsExact fields → fields ≠ [] →
    ∀ (stack : List Frame) (front : List (String × Json)) (key : String) (e : Expecting),
      e = .key ∨ e = .firstKey → ∀ (ok : Bool) (ts : List Token),
        (⟨.object front key false :: stack, e, none⟩ : ReaderState).run ok
            (fieldTokens fields ++ .closeObject :: ts) =
          (ReaderState.accept stack (.object (front.reverse ++ fields))).run ok ts
  | [], _, hne, _, _, _, _, _, _, _ => absurd rfl hne
  | [(k, v)], h, _, stack, front, key, e, he, ok, ts => by
    have hkey : (⟨.object front key false :: stack, e, none⟩ : ReaderState).run ok
        (fieldTokens [(k, v)] ++ .closeObject :: ts) =
          (⟨.object front k false :: stack, .value, none⟩ : ReaderState).run ok
            (v.tokens ++ .closeObject :: ts) := by
      rcases he with rfl | rfl <;> rfl
    rw [hkey, run_tokens v h.1 _ .value (.inl rfl)]
    simp [ReaderState.accept, ReaderState.run, ReaderState.step, ReaderState.closeObject, Frame.add,
      Frame.close]
  | (k, v) :: w :: rest, h, _, stack, front, key, e, he, ok, ts => by
    have hkey : (⟨.object front key false :: stack, e, none⟩ : ReaderState).run ok
        (fieldTokens ((k, v) :: w :: rest) ++ .closeObject :: ts) =
          (⟨.object front k false :: stack, .value, none⟩ : ReaderState).run ok
            (v.tokens ++ (.comma :: fieldTokens (w :: rest) ++ .closeObject :: ts)) := by
      rcases he with rfl | rfl <;> simp [fieldTokens, ReaderState.run, ReaderState.step,
        ReaderState.readKey]
    have hnext := run_fieldTokens (w :: rest) h.2 (by simp) stack ((k, v) :: front) k .key
      (.inl rfl) ok ts
    rw [hkey, run_tokens v h.1 _ .value (.inl rfl)]
    refine Eq.trans ?_ (hnext.trans (by simp))
    rfl

end

/-- Nothing is lost in a text: reading an indented value gives the value. -/
theorem read_indented {v : Json} (h : v.IsExact) : read v.indented = v := by
  have hlex : lex v.indented.toList = (v.tokens, true) := by
    have := splitsInto_indentedAt v h 0 [] (by simp [EndsWord])
    simpa [lex, indented, prepend, lexFrom, finish] using this
  rw [read, hlex]
  simpa [ReaderState.initial, ReaderState.accept, ReaderState.run] using
    run_tokens v h [] .value (.inl rfl) true []

end DeclarativeSql.Json
