import Workbook.Json.Basic
import Workbook.Decimal.Scaling
import Workbook.Text.Numeral

/-!
# Reading JSON text

A machine that takes the characters one by one. Its state says what may come next, its stack holds the
lists and objects that are still open. A text is refused at the first character that no document can
have there, or at its end when the document is unfinished. The place of a flaw is the number of bytes
read so far, as a rule with one byte of the offending character.
-/

namespace Workbook.Json

open Workbook.Text

/-- Why a text is no JSON document. -/
inductive Flaw where
  | endInValue
  | endInList
  | endInObject
  | endInText
  | expectedValue
  | expectedListEnd
  | expectedObjectEnd
  | expectedColon
  | keyNotText
  | trailingComma
  | trailingCharacters
  | invalidWord
  | invalidNumber
  | numberOutOfRange
  | nestedTooDeep
  | invalidEscape
  | controlCharacter
  | loneSurrogate
  | unfinishedPair
deriving DecidableEq, Repr

/-- The wording of a flaw. -/
def Flaw.message : Flaw → String
  | .endInValue => "EOF while parsing a value"
  | .endInList => "EOF while parsing a list"
  | .endInObject => "EOF while parsing an object"
  | .endInText => "EOF while parsing a string"
  | .expectedValue => "expected value"
  | .expectedListEnd => "expected `,` or `]`"
  | .expectedObjectEnd => "expected `,` or `\x7d`"
  | .expectedColon => "expected `:`"
  | .keyNotText => "key must be a string"
  | .trailingComma => "trailing comma"
  | .trailingCharacters => "trailing characters"
  | .invalidWord => "expected ident"
  | .invalidNumber => "invalid number"
  | .numberOutOfRange => "number out of range"
  | .nestedTooDeep => "recursion limit exceeded"
  | .invalidEscape => "invalid escape"
  | .controlCharacter => "control character (\\u0000-\\u001F) found while parsing a string"
  | .loneSurrogate => "lone leading surrogate in hex escape"
  | .unfinishedPair => "unexpected end of hex escape"

/-- The open bracket of this number is refused. -/
def depthLimit : Nat := 128

/-- A list or an object that is open, with what it holds so far; of an object also the key whose value
is being read. Items stand last first. -/
inductive Frame where
  | list (items : List Json)
  | object (members : List (String × Json)) (key : String)

/-- What a text stands for when its closing quote is read. -/
inductive TextRole where
  | value
  | key (members : List (String × Json))

/-- Inside a text: plain characters, or how far an escape has been read. `lead` is a leading surrogate
that waits for its partner. -/
inductive TextPhase where
  | plain
  | escape
  | hex (lead : Option Nat) (read : Nat) (code : Nat)
  | partnerSlash (lead : Nat)
  | partnerLetter (lead : Nat)

/-- How far a number has been read. -/
inductive NumberPhase where
  | minus
  | zero
  | whole
  | point
  | fraction
  | mark
  | sign
  | power
  /-- The power of ten is beyond all range, and the number is zero. -/
  | vanished
deriving DecidableEq

/-- A number that is being read: `significand * 10 ^ exponent`, and a written power of ten. -/
structure NumberState where
  negative : Bool
  significand : Nat
  exponent : Int
  /-- A digit did not fit into the significand, so the later ones of its part are not added either. -/
  full : Bool
  powerNegative : Bool
  power : Nat
  phase : NumberPhase

/-- What may come next. -/
inductive State where
  /-- A value at the start of the text or after a colon. -/
  | value
  /-- A value or the end of the list that has just been opened. -/
  | firstItem
  /-- A value after a comma. -/
  | nextItem
  /-- A key or the end of the object that has just been opened. -/
  | firstKey
  /-- A key after a comma. -/
  | nextKey (members : List (String × Json))
  | colon (members : List (String × Json)) (key : String)
  /-- A value has just been read. -/
  | done (value : Json)
  | word (rest : List Char) (value : Json)
  /-- A text, last character first. -/
  | text (role : TextRole) (chars : List Char) (phase : TextPhase)
  | number (n : NumberState)

/-- The machine. -/
structure Machine where
  stack : List Frame
  state : State

/-- A flaw with the number of bytes from the start of the character at hand to the flaw's place. -/
abbrev Step := Except (Flaw × Nat) Machine

/-- The blanks between the tokens of a document. -/
def isSpace (c : Char) : Bool := c == ' ' || c == '\t' || c == '\n' || c == '\r'

/-- A number below this bound is kept in the significand. -/
def significandBound : Nat := UInt64.size

/-- The greatest written power of ten. -/
def greatestExponent : Nat := 0x7FFFFFFF

/-- A digit of the whole part. Once a digit does not fit, it and all later ones only raise the
exponent. -/
def NumberState.wholeDigit (n : NumberState) (d : Nat) : NumberState :=
  if !n.full && 10 * n.significand + d < significandBound then
    { n with significand := 10 * n.significand + d, phase := .whole }
  else { n with exponent := n.exponent + 1, full := true, phase := .whole }

/-- A digit after the point. Digits from the first that does not fit are dropped. -/
def NumberState.fractionDigit (n : NumberState) (d : Nat) : NumberState :=
  if !n.full && 10 * n.significand + d < significandBound then
    { n with significand := 10 * n.significand + d, exponent := n.exponent - 1, phase := .fraction }
  else { n with full := true, phase := .fraction }

/-- A digit of the written power, if the power stays in range. Out of range the number is zero, or too
large. -/
def NumberState.powerDigit? (n : NumberState) (d : Nat) : Option NumberState :=
  if 10 * n.power + d ≤ greatestExponent then
    some { n with power := 10 * n.power + d, phase := .power }
  else if n.significand ≠ 0 && !n.powerNegative then none
  else some { n with phase := .vanished }

/-- A number with a sign. -/
def signed (negative : Bool) (x : Float) : Json := .real (if negative then -x else x)

/-- The magnitude of the least negative number of a machine word. -/
def greatestNegative : Nat := UInt64.size / 2

/-- A whole number that was written without a point and a power: kept exactly if a machine word holds
it, the negative zero and what is below the words as binary64. -/
def wholeValue (negative : Bool) (significand : Nat) : Json :=
  if !negative then .integer significand
  else if 0 < significand && significand ≤ greatestNegative then .integer (-significand)
  else signed true (UInt64.ofNat significand).toFloat

/-- The value of a number that has been read, if it is in range. -/
def NumberState.value? (n : NumberState) : Option Json :=
  match n.phase with
  | .vanished => some (signed n.negative 0)
  | .zero => some (wholeValue n.negative n.significand)
  | .whole =>
    if n.full then (Decimal.scale? n.significand n.exponent).map (signed n.negative)
    else some (wholeValue n.negative n.significand)
  | _ =>
    let power : Int := if n.powerNegative then -n.power else n.power
    (Decimal.scale? n.significand (n.exponent + power)).map (signed n.negative)

/-- A refusal at the character at hand, one byte of it included. -/
def refuse (flaw : Flaw) : Step := .error (flaw, 1)

/-- The first character of a value. -/
def startValue (stack : List Frame) (c : Char) : Step :=
  let number (phase : NumberPhase) (negative : Bool) (d : Nat) : Step :=
    .ok ⟨stack, .number ⟨negative, d, 0, false, false, 0, phase⟩⟩
  if c = '[' then
    if stack.length + 1 < depthLimit then .ok ⟨.list [] :: stack, .firstItem⟩ else refuse .nestedTooDeep
  else if c = '\x7b' then
    if stack.length + 1 < depthLimit then .ok ⟨stack, .firstKey⟩ else refuse .nestedTooDeep
  else if c = '"' then .ok ⟨stack, .text .value [] .plain⟩
  else if c = '-' then number .minus true 0
  else if c = '0' then number .zero false 0
  else if isDigit c then number .whole false (digitValue c)
  else if c = 't' then .ok ⟨stack, .word ['r', 'u', 'e'] (.boolean true)⟩
  else if c = 'f' then .ok ⟨stack, .word ['a', 'l', 's', 'e'] (.boolean false)⟩
  else if c = 'n' then .ok ⟨stack, .word ['u', 'l', 'l'] .null⟩
  else refuse .expectedValue

/-- The character after a value. -/
def afterValue (stack : List Frame) (value : Json) (c : Char) : Step :=
  if isSpace c then .ok ⟨stack, .done value⟩
  else match stack with
    | [] => refuse .trailingCharacters
    | .list items :: outer =>
      if c = ',' then .ok ⟨.list (value :: items) :: outer, .nextItem⟩
      else if c = ']' then .ok ⟨outer, .done (.list (value :: items).reverse)⟩
      else refuse .expectedListEnd
    | .object members key :: outer =>
      if c = ',' then .ok ⟨outer, .nextKey (insertMember key value members)⟩
      else if c = '\x7d' then .ok ⟨outer, .done (.object (insertMember key value members))⟩
      else refuse .expectedObjectEnd

/-- The machine after a text has been read. -/
def closeText (stack : List Frame) (chars : List Char) : TextRole → Machine
  | .value => ⟨stack, .done (.text (String.ofList chars.reverse))⟩
  | .key members => ⟨stack, .colon members (String.ofList chars.reverse)⟩

/-- The character that an escape letter stands for. -/
def escaped? (c : Char) : Option Char :=
  if c = '"' then some '"' else if c = '\\' then some '\\' else if c = '/' then some '/'
  else if c = 'b' then some '\x08' else if c = 'f' then some '\x0c' else if c = 'n' then some '\n'
  else if c = 'r' then some '\r' else if c = 't' then some '\t' else none

/-- A leading surrogate. -/
def isLead (code : Nat) : Bool := 0xD800 ≤ code && code ≤ 0xDBFF

/-- A trailing surrogate. -/
def isTrail (code : Nat) : Bool := 0xDC00 ≤ code && code ≤ 0xDFFF

/-- The character of a surrogate pair. -/
def pairChar (lead trail : Nat) : Char :=
  Char.ofNat (0x10000 + (lead - 0xD800) * 0x400 + (trail - 0xDC00))

/-- One character inside a text. -/
def inText (stack : List Frame) (role : TextRole) (chars : List Char) (phase : TextPhase) (c : Char) :
    Step :=
  let go (chars : List Char) (phase : TextPhase) : Step := .ok ⟨stack, .text role chars phase⟩
  match phase with
  | .plain =>
    if c = '"' then .ok (closeText stack chars role)
    else if c = '\\' then go chars .escape
    else if c.toNat < 0x20 then refuse .controlCharacter
    else go (c :: chars) .plain
  | .escape =>
    if c = 'u' then go chars (.hex none 0 0)
    else match escaped? c with
      | some e => go (e :: chars) .plain
      | none => refuse .invalidEscape
  | .hex lead read code =>
    match hexValue? c with
    | none => .error (.invalidEscape, 4 - read)
    | some d =>
      let code := 16 * code + d
      if read < 3 then go chars (.hex lead (read + 1) code)
      else match lead with
        | some first =>
          if isTrail code then go (pairChar first code :: chars) .plain else refuse .loneSurrogate
        | none =>
          if isTrail code then refuse .loneSurrogate
          else if isLead code then go chars (.partnerSlash code)
          else go (Char.ofNat code :: chars) .plain
  | .partnerSlash lead => if c = '\\' then go chars (.partnerLetter lead) else refuse .unfinishedPair
  | .partnerLetter lead => if c = 'u' then go chars (.hex (some lead) 0 0) else refuse .unfinishedPair

/-- The character after a number that may end here. -/
def afterNumber (stack : List Frame) (n : NumberState) (c : Char) : Step :=
  match n.value? with
  | some value => afterValue stack value c
  | none => .error (.numberOutOfRange, 0)

/-- One character inside or after a number. -/
def inNumber (stack : List Frame) (n : NumberState) (c : Char) : Step :=
  let go (n : NumberState) : Step := .ok ⟨stack, .number n⟩
  let tail : Step :=
    if c = '.' then go { n with phase := .point, full := false }
    else if c = 'e' || c = 'E' then go { n with phase := .mark }
    else afterNumber stack n c
  let power : Step :=
    if isDigit c then
      match n.powerDigit? (digitValue c) with
      | some m => go m
      | none => refuse .numberOutOfRange
    else refuse .invalidNumber
  match n.phase with
  | .minus =>
    if c = '0' then go { n with phase := .zero }
    else if isDigit c then go (n.wholeDigit (digitValue c))
    else refuse .invalidNumber
  | .zero => if isDigit c then refuse .invalidNumber else tail
  | .whole => if isDigit c then go (n.wholeDigit (digitValue c)) else tail
  | .point => if isDigit c then go (n.fractionDigit (digitValue c)) else refuse .invalidNumber
  | .fraction =>
    if isDigit c then go (n.fractionDigit (digitValue c))
    else if c = 'e' || c = 'E' then go { n with phase := .mark }
    else afterNumber stack n c
  | .mark =>
    if c = '+' then go { n with phase := .sign }
    else if c = '-' then go { n with phase := .sign, powerNegative := true }
    else power
  | .sign => power
  | .power => if isDigit c then power else afterNumber stack n c
  | .vanished => if isDigit c then go n else afterNumber stack n c

/-- One character of the document. -/
def Machine.step (m : Machine) (c : Char) : Step :=
  match m.state with
  | .value => if isSpace c then .ok m else startValue m.stack c
  | .firstItem =>
    if isSpace c then .ok m
    else if c = ']' then .ok ⟨m.stack.tail, .done (.list [])⟩
    else startValue m.stack c
  | .nextItem =>
    if isSpace c then .ok m
    else if c = ']' then refuse .trailingComma
    else startValue m.stack c
  | .firstKey =>
    if isSpace c then .ok m
    else if c = '\x7d' then .ok ⟨m.stack, .done (.object [])⟩
    else if c = '"' then .ok ⟨m.stack, .text (.key []) [] .plain⟩
    else refuse .keyNotText
  | .nextKey members =>
    if isSpace c then .ok m
    else if c = '\x7d' then refuse .trailingComma
    else if c = '"' then .ok ⟨m.stack, .text (.key members) [] .plain⟩
    else refuse .keyNotText
  | .colon members key =>
    if isSpace c then .ok m
    else if c = ':' then .ok ⟨.object members key :: m.stack, .value⟩
    else refuse .expectedColon
  | .done value => afterValue m.stack value c
  | .word rest value =>
    match rest with
    | [] => afterValue m.stack value c
    | [d] => if c = d then .ok ⟨m.stack, .done value⟩ else refuse .invalidWord
    | d :: more => if c = d then .ok ⟨m.stack, .word more value⟩ else refuse .invalidWord
  | .text role chars phase => inText m.stack role chars phase c
  | .number n => inNumber m.stack n c

/-- The end of the text after a complete value: nothing may be open. -/
def endAfterValue (stack : List Frame) (value : Json) : Except Flaw Json :=
  match stack with
  | [] => .ok value
  | .list _ :: _ => .error .endInList
  | .object _ _ :: _ => .error .endInObject

/-- The end of the text. -/
def Machine.finish (m : Machine) : Except Flaw Json :=
  match m.state with
  | .value | .nextItem | .nextKey _ | .word _ _ => .error .endInValue
  | .firstItem => .error .endInList
  | .firstKey | .colon _ _ => .error .endInObject
  | .done value => endAfterValue m.stack value
  | .text _ _ _ => .error .endInText
  | .number n =>
    match n.phase with
    | .minus | .point | .mark | .sign => .error .endInValue
    | _ =>
      match n.value? with
      | some value => endAfterValue m.stack value
      | none => .error .numberOutOfRange

/-- The bytes of a text. -/
def byteCount : List Char → Nat
  | [] => 0
  | c :: cs => c.utf8Size + byteCount cs

/-- Run the machine from a place, given in bytes. A flaw that would lie beyond the end of the text is
the end inside a text. -/
def Machine.run (m : Machine) (place : Nat) : List Char → Except (Flaw × Nat) Json
  | [] => m.finish.mapError (·, place)
  | c :: rest =>
    match m.step c with
    | .ok next => next.run (place + c.utf8Size) rest
    | .error (flaw, ahead) =>
      if ahead ≤ byteCount (c :: rest) then .error (flaw, place + ahead)
      else .error (.endInText, place + byteCount (c :: rest))

/-- The machine before the first character. -/
def Machine.start : Machine := ⟨[], .value⟩

/-- Read a document, or say what is wrong and after how many bytes. -/
def read (text : String) : Except (Flaw × Nat) Json := Machine.start.run 0 text.toList

end Workbook.Json
