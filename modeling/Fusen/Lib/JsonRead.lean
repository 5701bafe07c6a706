import Fusen.Lib.Json
import Fusen.Lib.Percent

/-!
# Reading JSON text

`Json.read limit` reads a text whose arrays and objects are nested at most `limit` deep.
A lexer makes tokens of the characters, and a machine with a stack of open arrays and
objects makes a value of the tokens.  `read_print`: what `Json.print` writes of a value
is read back as that value, unless the value is nested deeper than the limit.
-/

namespace Lib.Json

mutual

/-- How deep arrays and objects are nested. -/
def depth : Json → Nat
  | null | bool _ | number _ | string _ => 0
  | array items => depthItems items + 1
  | object fields => depthFields fields + 1

def depthItems : List Json → Nat
  | [] => 0
  | v :: items => max v.depth (depthItems items)

def depthFields : List (Text × Json) → Nat
  | [] => 0
  | (_, v) :: fields => max v.depth (depthFields fields)

end

/-! ## Numbers -/

/-- What of a number has been read. -/
inductive NumberState where
  | start
  | minus
  | zero
  | integer
  | point
  | fraction
  | exponent
  | exponentSign
  | exponentDigits
  deriving DecidableEq

def NumberState.next (state : NumberState) (c : Char) : Option NumberState :=
  match state with
  | start =>
    if c = '-' then some minus
    else if c = '0' then some zero else if c.isDigit then some integer else none
  | minus => if c = '0' then some zero else if c.isDigit then some integer else none
  | zero => if c = '.' then some point else if c = 'e' ∨ c = 'E' then some exponent else none
  | integer =>
    if c.isDigit then some integer
    else if c = '.' then some point else if c = 'e' ∨ c = 'E' then some exponent else none
  | point => if c.isDigit then some fraction else none
  | fraction =>
    if c.isDigit then some fraction else if c = 'e' ∨ c = 'E' then some exponent else none
  | exponent =>
    if c = '+' ∨ c = '-' then some exponentSign
    else if c.isDigit then some exponentDigits else none
  | exponentSign | exponentDigits => if c.isDigit then some exponentDigits else none

def NumberState.final : NumberState → Bool
  | zero | integer | fraction | exponentDigits => true
  | start | minus | point | exponent | exponentSign => false

def isNumber (s : Text) : Bool := (s.foldlM NumberState.next .start).any NumberState.final

mutual

/-- Every number inside has the text of one. -/
def Numbers : Json → Prop
  | null | bool _ | string _ => True
  | number text => isNumber text = true
  | array items => NumbersItems items
  | object fields => NumbersFields fields

def NumbersItems : List Json → Prop
  | [] => True
  | v :: items => v.Numbers ∧ NumbersItems items

def NumbersFields : List (Text × Json) → Prop
  | [] => True
  | (_, v) :: fields => v.Numbers ∧ NumbersFields fields

end

/-! ## Tokens -/

inductive Token where
  | openArray
  | closeArray
  | openObject
  | closeObject
  | comma
  | colon
  | string (value : Text)
  /-- A literal or a number. -/
  | atom (value : Json)

/-- A character of a literal or a number. -/
def isWordChar (c : Char) : Bool := c.isAlphanum || c == '+' || c == '-' || c == '.'

def atomOf (s : Text) : Option Json :=
  if isNumber s then some (.number s)
  else if s = "null".toList then some .null
  else if s = "true".toList then some (.bool true)
  else if s = "false".toList then some (.bool false)
  else none

inductive LexMode where
  | plain
  | word (read : Text)
  | text (read : Text)
  | escape (read : Text)
  /-- Inside `\u`, with the digits still to come; `high` is the surrogate before. -/
  | unicode (read : Text) (high : Option Nat) (left value : Nat)
  | afterHigh (read : Text) (high : Nat)
  | afterHighEscape (read : Text) (high : Nat)

/-- The character of a simple escape. -/
def unescapeChar : Char → Option Char
  | '"' => some '"'
  | '\\' => some '\\'
  | '/' => some '/'
  | 'b' => some (Char.ofNat 8)
  | 'f' => some (Char.ofNat 12)
  | 'n' => some '\n'
  | 'r' => some '\r'
  | 't' => some '\t'
  | _ => none

def isHigh (unit : Nat) : Bool := 0xD800 ≤ unit && unit < 0xDC00

def isLow (unit : Nat) : Bool := 0xDC00 ≤ unit && unit < 0xE000

/-- The mode behind the last digit of a code unit. -/
def closeUnicode (read : Text) (high : Option Nat) (unit : Nat) : Option LexMode :=
  match high with
  | none =>
    if isHigh unit then some (.afterHigh read unit)
    else if isLow unit then none else some (.text (read ++ [Char.ofNat unit]))
  | some high =>
    if isLow unit then
      some (.text (read ++ [Char.ofNat (0x10000 + (high - 0xD800) * 0x400 + (unit - 0xDC00))]))
    else none

def hexChar (c : Char) : Option Nat := (hexValue (UInt8.ofNat c.toNat)).map Fin.val

def plainStep (c : Char) : Option (List Token × LexMode) :=
  if c = '[' then some ([.openArray], .plain)
  else if c = ']' then some ([.closeArray], .plain)
  else if c = '{' then some ([.openObject], .plain)
  else if c = '}' then some ([.closeObject], .plain)
  else if c = ',' then some ([.comma], .plain)
  else if c = ':' then some ([.colon], .plain)
  else if c = '"' then some ([], .text [])
  else if c = ' ' ∨ c = '\n' ∨ c = '\r' ∨ c = '\t' then some ([], .plain)
  else if isWordChar c then some ([], .word [c])
  else none

namespace LexMode

/-- The tokens a character completes, and the mode behind it. -/
def next (mode : LexMode) (c : Char) : Option (List Token × LexMode) :=
  match mode with
  | plain => plainStep c
  | word read =>
    if isWordChar c then some ([], .word (read ++ [c]))
    else do
      let v ← atomOf read
      let (ts, mode) ← plainStep c
      return (.atom v :: ts, mode)
  | text read =>
    if c = '"' then some ([.string read], .plain)
    else if c = '\\' then some ([], .escape read)
    else if c.toNat < 32 then none
    else some ([], .text (read ++ [c]))
  | escape read =>
    if c = 'u' then some ([], .unicode read none 3 0)
    else (unescapeChar c).map fun d => ([], .text (read ++ [d]))
  | unicode read high left value => do
    let digit ← hexChar c
    match left with
    | 0 => (closeUnicode read high (value * 16 + digit)).map fun mode => ([], mode)
    | left + 1 => return ([], .unicode read high left (value * 16 + digit))
  | afterHigh read high => if c = '\\' then some ([], .afterHighEscape read high) else none
  | afterHighEscape read high => if c = 'u' then some ([], .unicode read (some high) 3 0) else none

/-- The tokens the end of the text completes. -/
def finish : LexMode → Option (List Token)
  | plain => some []
  | word read => (atomOf read).map fun v => [.atom v]
  | _ => none

end LexMode

def lex : LexMode → Text → Option (List Token)
  | mode, [] => mode.finish
  | mode, c :: s => do
    let (ts, mode) ← mode.next c
    let rest ← lex mode s
    return ts ++ rest

/-! ## Values -/

/-- An array with the items before, or an object with the fields before and the key. -/
inductive Frame where
  | array (items : List Json)
  | object (fields : List (Text × Json)) (key : Text)

inductive ReadState where
  | value (stack : List Frame)
  /-- Behind an opening bracket. -/
  | first (stack : List Frame)
  /-- Behind an opening brace. -/
  | firstKey (stack : List Frame)
  | nextKey (fields : List (Text × Json)) (stack : List Frame)
  | colon (fields : List (Text × Json)) (key : Text) (stack : List Frame)
  | complete (v : Json) (stack : List Frame)

section Reader

variable (limit : Nat)

/-- A token where a value is expected. -/
def beginValue (stack : List Frame) : Token → Option ReadState
  | .atom v => some (.complete v stack)
  | .string s => some (.complete (.string s) stack)
  | .openArray => if stack.length < limit then some (.first stack) else none
  | .openObject => if stack.length < limit then some (.firstKey stack) else none
  | _ => none

def ReadState.next : ReadState → Token → Option ReadState
  | .value stack, t => beginValue limit stack t
  | .first stack, .closeArray => some (.complete (.array []) stack)
  | .first stack, t => beginValue limit (.array [] :: stack) t
  | .firstKey stack, .closeObject => some (.complete (.object []) stack)
  | .firstKey stack, .string key => some (.colon [] key stack)
  | .nextKey fields stack, .string key => some (.colon fields key stack)
  | .colon fields key stack, .colon => some (.value (.object fields key :: stack))
  | .complete v (.array items :: stack), .comma => some (.value (.array (items ++ [v]) :: stack))
  | .complete v (.array items :: stack), .closeArray =>
    some (.complete (.array (items ++ [v])) stack)
  | .complete v (.object fields key :: stack), .comma => some (.nextKey (fields ++ [(key, v)]) stack)
  | .complete v (.object fields key :: stack), .closeObject =>
    some (.complete (.object (fields ++ [(key, v)])) stack)
  | _, _ => none

def readTokens (state : ReadState) (ts : List Token) : Option ReadState :=
  ts.foldlM (ReadState.next limit) state

def read (s : Text) : Option Json :=
  match (lex .plain s).bind (readTokens limit (.value [])) with
  | some (.complete v []) => some v
  | _ => none

end Reader

/-! ## Lexing what was printed -/

theorem lex_cons {mode mode' : LexMode} {c : Char} {ts : List Token} (h : mode.next c = some (ts, mode'))
    (s : Text) : lex mode (c :: s) = (lex mode' s).map (ts ++ ·) := by
  rw [lex, h]
  cases hrest : lex mode' s <;> simp [hrest]

/-- A character without output. -/
theorem lex_skip {mode mode' : LexMode} {c : Char} (h : mode.next c = some ([], mode')) (s : Text) :
    lex mode (c :: s) = lex mode' s := by
  rw [lex_cons h]
  exact Option.map_id'

theorem hexChar_lowerHexDigit : ∀ n, n < 16 → hexChar (lowerHexDigit n) = some n := by
  decide

theorem lex_simpleEscape {e d : Char} (h : unescapeChar e = some d) (hu : e ≠ 'u')
    (read rest : Text) :
    lex (.text read) ('\\' :: e :: rest) = lex (.text (read ++ [d])) rest := by
  have hescape : (LexMode.text read).next '\\' = some ([], .escape read) := rfl
  have hchar : (LexMode.escape read).next e = some ([], .text (read ++ [d])) := by
    show (if e = 'u' then _ else _) = _
    rw [if_neg hu, h]
    rfl
  rw [lex_skip hescape, lex_skip hchar]

/-- `\u00` and two digits. -/
theorem lex_unicode {c : Char} (h : c.toNat < 32) (read rest : Text) :
    lex (.text read) ('\\' :: 'u' :: '0' :: '0' :: lowerHexDigit (c.toNat / 16) ::
      lowerHexDigit (c.toNat % 16) :: rest) = lex (.text (read ++ [c])) rest := by
  have hhigh := hexChar_lowerHexDigit (c.toNat / 16) (by omega)
  have hlow := hexChar_lowerHexDigit (c.toNat % 16) (by omega)
  have hvalue : (0 * 16 + c.toNat / 16) * 16 + c.toNat % 16 = c.toNat := by omega
  have hescape : (LexMode.text read).next '\\' = some ([], .escape read) := rfl
  have hu : (LexMode.escape read).next 'u' = some ([], .unicode read none 3 0) := rfl
  have hzero : ∀ left, (LexMode.unicode read none (left + 1) 0).next '0' =
      some ([], .unicode read none left 0) := fun _ => rfl
  have hthird : (LexMode.unicode read none 1 0).next (lowerHexDigit (c.toNat / 16)) =
      some ([], .unicode read none 0 (0 * 16 + c.toNat / 16)) := by
    show (hexChar _ >>= _) = _
    rw [hhigh]
    rfl
  have hfourth : (LexMode.unicode read none 0 (0 * 16 + c.toNat / 16)).next
      (lowerHexDigit (c.toNat % 16)) = some ([], .text (read ++ [c])) := by
    show (hexChar _ >>= _) = _
    rw [hlow]
    show ((closeUnicode read none _).map _) = _
    rw [hvalue]
    unfold closeUnicode
    dsimp only
    rw [if_neg (by simp [isHigh]; omega), if_neg (by simp [isLow]; omega), Char.ofNat_toNat]
    rfl
  rw [lex_skip hescape, lex_skip hu, lex_skip (hzero 2), lex_skip (hzero 1), lex_skip hthird,
    lex_skip hfourth]

theorem lex_escapeChar (read : Text) (c : Char) (rest : Text) :
    lex (.text read) (escapeChar c ++ rest) = lex (.text (read ++ [c])) rest := by
  have hchar : ∀ n, c.toNat = n → c = Char.ofNat n := by
    rintro n rfl
    exact (Char.ofNat_toNat c).symm
  unfold escapeChar
  split
  · subst c
    exact lex_simpleEscape rfl (by decide) read rest
  split
  · subst c
    exact lex_simpleEscape rfl (by decide) read rest
  split
  · rename_i h
    rw [hchar 8 h]
    exact lex_simpleEscape rfl (by decide) read rest
  split
  · rename_i h
    rw [hchar 12 h]
    exact lex_simpleEscape rfl (by decide) read rest
  split
  · subst c
    exact lex_simpleEscape rfl (by decide) read rest
  split
  · subst c
    exact lex_simpleEscape rfl (by decide) read rest
  split
  · subst c
    exact lex_simpleEscape rfl (by decide) read rest
  split
  · rename_i h
    exact lex_unicode h read rest
  · rename_i hquote hslash _ _ _ _ _ hcontrol
    have hchar : (LexMode.text read).next c = some ([], .text (read ++ [c])) := by
      show (if c = '"' then _ else _) = _
      rw [if_neg hquote, if_neg hslash, if_neg hcontrol]
    rw [List.singleton_append, lex_skip hchar]

theorem lex_flatMap (read s rest : Text) :
    lex (.text read) (s.flatMap escapeChar ++ '"' :: rest) =
      (lex .plain rest).map (.string (read ++ s) :: ·) := by
  induction s generalizing read with
  | nil =>
    have hquote : (LexMode.text read).next '"' = some ([.string read], .plain) := rfl
    rw [List.flatMap_nil, List.nil_append, lex_cons hquote, List.append_nil]
    rfl
  | cons c s ih =>
    rw [List.flatMap_cons, List.append_assoc, lex_escapeChar, ih, List.append_assoc]
    rfl

theorem lex_printString (s rest : Text) :
    lex .plain (printString s ++ rest) = (lex .plain rest).map (.string s :: ·) := by
  have hquote : LexMode.plain.next '"' = some ([], .text []) := rfl
  show lex .plain ('"' :: (s.flatMap escapeChar ++ ['"'] ++ rest)) = _
  rw [lex_skip hquote, List.append_assoc, List.singleton_append, lex_flatMap]
  rfl

/-! ### Literals and numbers -/

/-- What follows does not continue a literal or a number. -/
def Delimited (rest : Text) : Prop := ∀ c s, rest = c :: s → isWordChar c = false

theorem delimited_nil : Delimited [] := nofun

theorem delimited_cons {c : Char} (h : isWordChar c = false) (s : Text) : Delimited (c :: s) := by
  rintro c' s' ⟨⟩
  exact h

theorem lex_wordChars {s : Text} (h : s.all isWordChar = true) (read rest : Text) :
    lex (.word read) (s ++ rest) = lex (.word (read ++ s)) rest := by
  induction s generalizing read with
  | nil => rw [List.append_nil, List.nil_append]
  | cons c s ih =>
    rw [List.all_cons, Bool.and_eq_true] at h
    have hchar : (LexMode.word read).next c = some ([], .word (read ++ [c])) := by
      show (if isWordChar c then _ else _) = _
      rw [if_pos h.1]
    rw [List.cons_append, lex_skip hchar, ih h.2, List.append_assoc]
    rfl

theorem lex_atomEnd {w : Text} {v : Json} (h : atomOf w = some v) {rest : Text}
    (hrest : Delimited rest) : lex (.word w) rest = (lex .plain rest).map (.atom v :: ·) := by
  cases rest with
  | nil =>
    show (atomOf w).map _ = _
    rw [h]
    rfl
  | cons c s =>
    have hc := hrest c s rfl
    cases hplain : plainStep c with
    | none =>
      have hnext : (LexMode.word w).next c = none := by
        show (if isWordChar c then _ else _) = _
        rw [if_neg (by simp [hc]), h, hplain]
        rfl
      rw [lex, hnext, lex]
      show _ = Option.map _ (plainStep c >>= _)
      rw [hplain]
      rfl
    | some out =>
      have hnext : (LexMode.word w).next c = some (.atom v :: out.1, out.2) := by
        show (if isWordChar c then _ else _) = _
        rw [if_neg (by simp [hc]), h, hplain]
        rfl
      have hplain' : LexMode.plain.next c = some (out.1, out.2) := hplain
      rw [lex_cons hnext, lex_cons hplain', Option.map_map]
      rfl

/-- A word that starts where a value is expected. -/
theorem lex_atom {c : Char} {w : Text} {v : Json} (hc : plainStep c = some ([], .word [c]))
    (hw : w.all isWordChar = true) (h : atomOf (c :: w) = some v) {rest : Text}
    (hrest : Delimited rest) :
    lex .plain (c :: w ++ rest) = (lex .plain rest).map (.atom v :: ·) := by
  have hstart : LexMode.plain.next c = some ([], .word [c]) := hc
  rw [List.cons_append, lex_skip hstart, lex_wordChars hw]
  exact lex_atomEnd h hrest

theorem isWordChar_of_isDigit {c : Char} (h : c.isDigit = true) : isWordChar c = true := by
  simp [isWordChar, Char.isAlphanum, h]

theorem isWordChar_of_next {state state' : NumberState} {c : Char}
    (h : state.next c = some state') : isWordChar c = true := by
  by_cases hd : c.isDigit = true
  · exact isWordChar_of_isDigit hd
  · have hsigns : c = '-' ∨ c = '+' ∨ c = '.' ∨ c = 'e' ∨ c = 'E' ∨ c = '0' := by
      by_contra hnone
      simp only [not_or] at hnone
      obtain ⟨hminus, hplus, hpoint, he, hE, hzero⟩ := hnone
      cases state <;> simp [NumberState.next, *] at h
    rcases hsigns with rfl | rfl | rfl | rfl | rfl | rfl <;> decide

theorem all_isWordChar_of_isNumber {s : Text} (h : isNumber s = true) :
    s.all isWordChar = true := by
  have hrun : ∀ (s : Text) (state : NumberState), (s.foldlM NumberState.next state).isSome = true →
      s.all isWordChar = true := by
    intro s
    induction s with
    | nil => exact fun _ _ => rfl
    | cons c s ih =>
      intro state hs
      rw [List.foldlM_cons] at hs
      cases hc : state.next c with
      | none =>
        rw [hc] at hs
        cases hs
      | some state' =>
        rw [hc] at hs
        rw [List.all_cons, isWordChar_of_next hc, ih state' hs]
        rfl
  refine hrun s .start ?_
  unfold isNumber at h
  cases hs : s.foldlM NumberState.next .start with
  | none =>
    rw [hs] at h
    cases h
  | some state => rfl

/-- A number is a word of its own. -/
theorem plainStep_of_number {c : Char} {s : Text} (h : isNumber (c :: s) = true) :
    plainStep c = some ([], .word [c]) := by
  have hword := all_isWordChar_of_isNumber h
  rw [List.all_cons, Bool.and_eq_true] at hword
  have hne : ∀ d, isWordChar d = false → c ≠ d := by
    rintro d hd rfl
    exact absurd (hword.1.symm.trans hd) (by decide)
  unfold plainStep
  rw [if_neg (hne _ (by decide)), if_neg (hne _ (by decide)), if_neg (hne _ (by decide)),
    if_neg (hne _ (by decide)), if_neg (hne _ (by decide)), if_neg (hne _ (by decide)),
    if_neg (hne _ (by decide)), if_neg, if_pos hword.1]
  rintro (h | h | h | h) <;> exact hne _ (by decide) h

theorem lex_number {s : Text} (h : isNumber s = true) {rest : Text} (hrest : Delimited rest) :
    lex .plain (s ++ rest) = (lex .plain rest).map (.atom (.number s) :: ·) := by
  cases s with
  | nil => cases h
  | cons c s =>
    have hword := all_isWordChar_of_isNumber h
    rw [List.all_cons, Bool.and_eq_true] at hword
    refine lex_atom (plainStep_of_number h) hword.2 ?_ hrest
    unfold atomOf
    rw [if_pos h]

/-! ### Values -/

mutual

/-- The tokens of a printed value. -/
def tokens : Json → List Token
  | null => [.atom null]
  | bool value => [.atom (bool value)]
  | number text => [.atom (number text)]
  | string value => [.string value]
  | array [] => [.openArray, .closeArray]
  | array (v :: items) => .openArray :: (tokens v ++ tokensItems items)
  | object [] => [.openObject, .closeObject]
  | object ((k, v) :: fields) =>
    .openObject :: .string k :: .colon :: (tokens v ++ tokensFields fields)

def tokensItems : List Json → List Token
  | [] => [.closeArray]
  | v :: items => .comma :: (tokens v ++ tokensItems items)

def tokensFields : List (Text × Json) → List Token
  | [] => [.closeObject]
  | (k, v) :: fields => .comma :: .string k :: .colon :: (tokens v ++ tokensFields fields)

end

theorem lex_plain {c : Char} {t : Token} (h : plainStep c = some ([t], .plain)) (s : Text) :
    lex .plain (c :: s) = (lex .plain s).map (t :: ·) := by
  have hnext : LexMode.plain.next c = some ([t], .plain) := h
  exact lex_cons hnext s

theorem delimited_printItems (items : List Json) (rest : Text) :
    Delimited (printItems items ++ rest) := by
  cases items with
  | nil => exact delimited_cons (by decide) _
  | cons v items => exact delimited_cons (by decide) _

theorem delimited_printFields (fields : List (Text × Json)) (rest : Text) :
    Delimited (printFields fields ++ rest) := by
  cases fields with
  | nil => exact delimited_cons (by decide) _
  | cons f fields => exact delimited_cons (by decide) _

mutual

theorem lex_print (v : Json) (hv : v.Numbers) {rest : Text} (hrest : Delimited rest) :
    lex .plain (v.print ++ rest) = (lex .plain rest).map (v.tokens ++ ·) := by
  match v, hv with
  | null, _ => exact lex_atom (c := 'n') rfl rfl rfl hrest
  | bool true, _ => exact lex_atom (c := 't') rfl rfl rfl hrest
  | bool false, _ => exact lex_atom (c := 'f') rfl rfl rfl hrest
  | number text, hv => exact lex_number hv hrest
  | string value, _ => exact lex_printString value rest
  | array [], _ =>
    show lex .plain ('[' :: ']' :: rest) = _
    rw [lex_plain rfl, lex_plain rfl, Option.map_map]
    rfl
  | array (v :: items), hv =>
    show lex .plain ('[' :: (v.print ++ printItems items ++ rest)) = _
    rw [lex_plain rfl, List.append_assoc, lex_print v hv.1 (delimited_printItems items rest),
      lex_printItems items hv.2, Option.map_map, Option.map_map]
    congr 1
    funext ts
    simp [tokens]
  | object [], _ =>
    show lex .plain ('{' :: '}' :: rest) = _
    rw [lex_plain rfl, lex_plain rfl, Option.map_map]
    rfl
  | object ((k, v) :: fields), hv =>
    show lex .plain ('{' :: (printString k ++ ':' :: (v.print ++ printFields fields) ++ rest)) = _
    rw [lex_plain rfl, List.append_assoc, lex_printString, List.cons_append, lex_plain rfl,
      List.append_assoc, lex_print v hv.1 (delimited_printFields fields rest),
      lex_printFields fields hv.2, Option.map_map, Option.map_map, Option.map_map, Option.map_map]
    congr 1
    funext ts
    simp [tokens]

theorem lex_printItems (items : List Json) (hitems : NumbersItems items) {rest : Text} :
    lex .plain (printItems items ++ rest) = (lex .plain rest).map (tokensItems items ++ ·) := by
  match items, hitems with
  | [], _ => exact lex_plain rfl rest
  | v :: items, hitems =>
    show lex .plain (',' :: (v.print ++ printItems items ++ rest)) = _
    rw [lex_plain rfl, List.append_assoc, lex_print v hitems.1 (delimited_printItems items rest),
      lex_printItems items hitems.2, Option.map_map, Option.map_map]
    congr 1
    funext ts
    simp [tokensItems]

theorem lex_printFields (fields : List (Text × Json)) (hfields : NumbersFields fields)
    {rest : Text} :
    lex .plain (printFields fields ++ rest) = (lex .plain rest).map (tokensFields fields ++ ·) := by
  match fields, hfields with
  | [], _ => exact lex_plain rfl rest
  | (k, v) :: fields, hfields =>
    show lex .plain (',' :: (printString k ++ ':' :: (v.print ++ printFields fields) ++ rest)) = _
    rw [lex_plain rfl, List.append_assoc, lex_printString, List.cons_append, lex_plain rfl,
      List.append_assoc, lex_print v hfields.1 (delimited_printFields fields rest),
      lex_printFields fields hfields.2, Option.map_map, Option.map_map, Option.map_map,
      Option.map_map]
    congr 1
    funext ts
    simp [tokensFields]

end

/-! ## Reading the tokens -/

section Reading

variable {limit : Nat}

theorem readTokens_cons {state state' : ReadState} {t : Token}
    (h : state.next limit t = some state') (ts : List Token) :
    readTokens limit state (t :: ts) = readTokens limit state' ts := by
  unfold readTokens
  rw [List.foldlM_cons, h]
  rfl

theorem readTokens_stuck {state : ReadState} {t : Token} (h : state.next limit t = none)
    (ts : List Token) : readTokens limit state (t :: ts) = none := by
  unfold readTokens
  rw [List.foldlM_cons, h]
  rfl

/-- A value starts as it does where any value is expected, also behind a bracket. -/
theorem readTokens_first (stack : List Frame) (v : Json) (ts : List Token) :
    readTokens limit (.first stack) (v.tokens ++ ts) =
      readTokens limit (.value (.array [] :: stack)) (v.tokens ++ ts) := by
  unfold readTokens
  match v with
  | null | bool _ | number _ | string _ => rfl
  | array [] | array (_ :: _) | object [] | object ((_, _) :: _) => rfl

theorem next_openArray (stack : List Frame) :
    (ReadState.value stack).next limit .openArray =
      if stack.length < limit then some (.first stack) else none := rfl

theorem next_openObject (stack : List Frame) :
    (ReadState.value stack).next limit .openObject =
      if stack.length < limit then some (.firstKey stack) else none := rfl

mutual

/-- The tokens of a value are read as that value unless it is nested too deep. -/
theorem readTokens_value (v : Json) (stack : List Frame) (hstack : stack.length ≤ limit)
    (ts : List Token) :
    readTokens limit (.value stack) (v.tokens ++ ts) =
      if v.depth + stack.length ≤ limit then readTokens limit (.complete v stack) ts else none := by
  match v with
  | null | bool _ | number _ | string _ =>
    rw [if_pos (by simpa [depth] using hstack)]
    exact readTokens_cons rfl ts
  | array [] =>
    show readTokens limit _ (.openArray :: .closeArray :: ts) = _
    by_cases hlt : stack.length < limit
    · rw [readTokens_cons ((next_openArray stack).trans (if_pos hlt)), readTokens_cons rfl,
        if_pos (by simp only [depth, depthItems]; omega)]
    · rw [readTokens_stuck ((next_openArray stack).trans (if_neg hlt)),
        if_neg (by simp only [depth, depthItems]; omega)]
  | array (v :: items) =>
    show readTokens limit _ (.openArray :: (v.tokens ++ tokensItems items ++ ts)) = _
    by_cases hlt : stack.length < limit
    · rw [readTokens_cons ((next_openArray stack).trans (if_pos hlt)), List.append_assoc,
        readTokens_first, readTokens_value v (.array [] :: stack) hlt, List.length_cons]
      by_cases hv : v.depth + (stack.length + 1) ≤ limit
      · rw [if_pos hv, readTokens_items items hlt [] v]
        simp only [depth, depthItems, List.nil_append]
        congr 1
        simp only [eq_iff_iff]
        omega
      · rw [if_neg hv, if_neg]
        simp only [depth, depthItems]
        omega
    · rw [readTokens_stuck ((next_openArray stack).trans (if_neg hlt)),
        if_neg (by simp only [depth]; omega)]
  | object [] =>
    show readTokens limit _ (.openObject :: .closeObject :: ts) = _
    by_cases hlt : stack.length < limit
    · rw [readTokens_cons ((next_openObject stack).trans (if_pos hlt)), readTokens_cons rfl,
        if_pos (by simp only [depth, depthFields]; omega)]
    · rw [readTokens_stuck ((next_openObject stack).trans (if_neg hlt)),
        if_neg (by simp only [depth, depthFields]; omega)]
  | object ((k, v) :: fields) =>
    show readTokens limit _
      (.openObject :: .string k :: .colon :: (v.tokens ++ tokensFields fields ++ ts)) = _
    by_cases hlt : stack.length < limit
    · rw [readTokens_cons ((next_openObject stack).trans (if_pos hlt)), readTokens_cons rfl,
        readTokens_cons rfl, List.append_assoc, readTokens_value v (.object [] k :: stack) hlt,
        List.length_cons]
      by_cases hv : v.depth + (stack.length + 1) ≤ limit
      · rw [if_pos hv, readTokens_fields fields hlt [] k v]
        simp only [depth, depthFields, List.nil_append]
        congr 1
        simp only [eq_iff_iff]
        omega
      · rw [if_neg hv, if_neg]
        simp only [depth, depthFields]
        omega
    · rw [readTokens_stuck ((next_openObject stack).trans (if_neg hlt)),
        if_neg (by simp only [depth]; omega)]

theorem readTokens_items (items : List Json) {stack : List Frame} (hstack : stack.length < limit)
    (before : List Json) (v : Json) (ts : List Token) :
    readTokens limit (.complete v (.array before :: stack)) (tokensItems items ++ ts) =
      if depthItems items + (stack.length + 1) ≤ limit then
        readTokens limit (.complete (.array (before ++ v :: items)) stack) ts
      else none := by
  match items with
  | [] =>
    rw [if_pos (by simp only [depthItems]; omega)]
    exact readTokens_cons rfl ts
  | w :: items =>
    show readTokens limit _ (.comma :: (w.tokens ++ tokensItems items ++ ts)) = _
    rw [readTokens_cons rfl, List.append_assoc,
      readTokens_value w (.array (before ++ [v]) :: stack) hstack,
      List.length_cons]
    by_cases hw : w.depth + (stack.length + 1) ≤ limit
    · rw [if_pos hw, readTokens_items items hstack (before ++ [v]) w, List.append_assoc]
      simp only [depthItems, List.singleton_append]
      congr 1
      simp only [eq_iff_iff]
      omega
    · rw [if_neg hw, if_neg]
      simp only [depthItems]
      omega

theorem readTokens_fields (fields : List (Text × Json)) {stack : List Frame}
    (hstack : stack.length < limit) (before : List (Text × Json)) (k : Text) (v : Json)
    (ts : List Token) :
    readTokens limit (.complete v (.object before k :: stack)) (tokensFields fields ++ ts) =
      if depthFields fields + (stack.length + 1) ≤ limit then
        readTokens limit (.complete (.object (before ++ (k, v) :: fields)) stack) ts
      else none := by
  match fields with
  | [] =>
    rw [if_pos (by simp only [depthFields]; omega)]
    exact readTokens_cons rfl ts
  | (l, w) :: fields =>
    show readTokens limit _
      (.comma :: .string l :: .colon :: (w.tokens ++ tokensFields fields ++ ts)) = _
    rw [readTokens_cons rfl, readTokens_cons rfl, readTokens_cons rfl, List.append_assoc,
      readTokens_value w (.object (before ++ [(k, v)]) l :: stack) hstack, List.length_cons]
    by_cases hw : w.depth + (stack.length + 1) ≤ limit
    · rw [if_pos hw, readTokens_fields fields hstack (before ++ [(k, v)]) l w, List.append_assoc]
      simp only [depthFields, List.singleton_append]
      congr 1
      simp only [eq_iff_iff]
      omega
    · rw [if_neg hw, if_neg]
      simp only [depthFields]
      omega

end

/-- **What was printed is read back**, unless it is nested deeper than the limit. -/
theorem read_print {v : Json} (hv : v.Numbers) (limit : Nat) :
    read limit v.print = if v.depth ≤ limit then some v else none := by
  have hlex : lex .plain v.print = some v.tokens := by
    have h := lex_print v hv delimited_nil
    rw [List.append_nil] at h
    rw [h]
    show some (v.tokens ++ []) = _
    rw [List.append_nil]
  have hread : readTokens limit (.value []) (v.tokens ++ []) = _ :=
    readTokens_value v [] (Nat.zero_le _) []
  rw [List.append_nil] at hread
  unfold read
  rw [hlex, Option.bind_some, hread]
  by_cases hdepth : v.depth ≤ limit
  · rw [if_pos hdepth, if_pos (by simpa using hdepth)]
    rfl
  · rw [if_neg hdepth, if_neg (by simpa using hdepth)]

end Reading

/-! ## Depth and length -/

mutual

theorem depth_le_length_print (v : Json) : v.depth ≤ v.print.length := by
  match v with
  | null | bool _ | number _ | string _ => exact Nat.zero_le _
  | array [] | object [] => show 0 + 1 ≤ _; decide
  | array (v :: items) =>
    have hv := depth_le_length_print v
    have hitems := depthItems_le_length_print items
    simp only [depth, depthItems, print, List.length_cons, List.length_append]
    omega
  | object ((k, v) :: fields) =>
    have hv := depth_le_length_print v
    have hfields := depthFields_le_length_print fields
    simp only [depth, depthFields, print, List.length_cons, List.length_append]
    omega

theorem depthItems_le_length_print (items : List Json) :
    depthItems items ≤ (printItems items).length := by
  match items with
  | [] => exact Nat.zero_le _
  | v :: items =>
    have hv := depth_le_length_print v
    have hitems := depthItems_le_length_print items
    simp only [depthItems, printItems, List.length_cons, List.length_append]
    omega

theorem depthFields_le_length_print (fields : List (Text × Json)) :
    depthFields fields ≤ (printFields fields).length := by
  match fields with
  | [] => exact Nat.zero_le _
  | (k, v) :: fields =>
    have hv := depth_le_length_print v
    have hfields := depthFields_le_length_print fields
    simp only [depthFields, printFields, List.length_cons, List.length_append]
    omega

end

end Lib.Json
