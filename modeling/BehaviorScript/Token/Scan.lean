import BehaviorScript.Token

/-!
# Scanning

A scan cuts a source into tokens from left to right.  Spaces, tabs, carriage returns
and comments only separate tokens.  A line end becomes a token of its own unless the
token before it is a line end already or there is none, so blank lines leave no trace.
The scan ends at the end of the source, or gets stuck at the first place where no
token begins; the tokens before that place stand.
-/

namespace BehaviorScript

/-!
## The piece at the start of a text
-/

/--
The token at the start of some characters: its text without the `margin` quotes on
either side, and the characters after it.
-/
structure Lexeme where
  kind : TokenKind
  margin : Nat
  text : List Char
  rest : List Char
  deriving DecidableEq, Repr

namespace Lexeme

/--
The characters of words: ASCII letters and digits, the underscore, the point and the
dollar sign.  A hyphen belongs to a word too, but not where it begins an arrow.
-/
def isWordChar (c : Char) : Bool :=
  c.isAlphanum || c == '_' || c == '.' || c == '$'

def splitWord : List Char -> List Char × List Char
  | [] => ([], [])
  | c :: cs =>
      if isWordChar c || (c == '-' && cs.head? != some '>') then
        let split := splitWord cs
        (c :: split.1, split.2)
      else
        ([], c :: cs)

/--
The characters up to the closing quote, and those after it.  A quoted value ends on the line it
begins on.
-/
def splitQuoted (quote : Char) : List Char -> Option (List Char × List Char)
  | [] => none
  | c :: cs =>
      if c = quote then some ([], cs)
      else if c = '\n' then none
      else (splitQuoted quote cs).map fun (body, rest) => (c :: body, rest)

def next? : List Char -> Option Lexeme
  | [] => none
  | c :: cs =>
      if c = ':' then
        some ⟨.operator .assign, 0, [c], cs⟩
      else if c = '-' ∧ cs.head? = some '>' then
        some ⟨.operator .transition, 0, [c, '>'], cs.tail⟩
      else if c = '@' then
        let (word, rest) := splitWord cs
        (Keyword.ofWord? (String.ofList word)).map fun k => ⟨.keyword k, 0, c :: word, rest⟩
      else if c = '\'' ∨ c = '"' then
        (splitQuoted c cs).map fun (body, rest) => ⟨.quoted, 1, body, rest⟩
      else if isWordChar c ∨ (c = '-' ∧ (splitWord cs).1 ≠ []) then
        let (word, rest) := splitWord cs
        some ⟨.word, 0, c :: word, rest⟩
      else
        none

def width (l : Lexeme) : Nat :=
  Text.byteSize l.text + 2 * l.margin

def toToken (l : Lexeme) (offset line : Nat) : Token :=
  { kind := l.kind
    start := offset + l.margin
    size := Text.byteSize l.text
    line := line
    text := String.ofList l.text }

/-!
## What is left is shorter
-/

theorem splitWord_append (cs : List Char) :
    (splitWord cs).1 ++ (splitWord cs).2 = cs := by
  induction cs with
  | nil => rfl
  | cons c cs ih =>
      rw [splitWord]
      split
      · simpa using ih
      · rfl

theorem length_splitWord_le (cs : List Char) :
    (splitWord cs).2.length ≤ cs.length := by
  have h := congrArg List.length (splitWord_append cs)
  simp at h
  omega

theorem splitQuoted_append {quote : Char} {cs body rest : List Char}
    (h : splitQuoted quote cs = some (body, rest)) :
    cs = body ++ quote :: rest := by
  induction cs generalizing body with
  | nil => simp [splitQuoted] at h
  | cons c cs ih =>
      rw [splitQuoted] at h
      split at h
      · next hc =>
          have hparts : body = [] ∧ rest = cs := by simpa [eq_comm] using h
          rcases hparts with ⟨rfl, rfl⟩
          simp [hc]
      · split at h
        · simp at h
        · rcases Option.map_eq_some_iff.1 h with ⟨⟨b, r⟩, hb, hr⟩
          have hparts : body = c :: b ∧ rest = r := by simpa [eq_comm] using hr
          rcases hparts with ⟨rfl, rfl⟩
          simpa using ih hb

theorem length_rest_lt {cs : List Char} {l : Lexeme} (h : next? cs = some l) :
    l.rest.length < cs.length := by
  cases cs with
  | nil => simp [next?] at h
  | cons c cs =>
      have hword := length_splitWord_le cs
      rw [next?] at h
      split at h
      · cases h
        simp
      · split at h
        · cases h
          simp only [List.length_tail, List.length_cons]
          omega
        · split at h
          · rcases Option.map_eq_some_iff.1 h with ⟨k, -, rfl⟩
            simp
            omega
          · split at h
            · rcases Option.map_eq_some_iff.1 h with ⟨⟨body, rest⟩, hb, rfl⟩
              have := congrArg List.length (splitQuoted_append hb)
              simp at this ⊢
              omega
            · split at h
              · cases h
                simp
                omega
              · simp at h

end Lexeme

/-!
## Scanning a whole text
-/

inductive ScanEnd where
  | complete (line : Nat)
  | stuck (offset line : Nat)
  deriving DecidableEq, Repr

structure Scan where
  tokens : List Token
  finish : ScanEnd
  deriving DecidableEq, Repr

namespace Scan

def cons (t : Token) (s : Scan) : Scan :=
  { s with tokens := t :: s.tokens }

def stuck? (s : Scan) : Option (Nat × Nat) :=
  match s.finish with
  | .complete _ => none
  | .stuck offset line => some (offset, line)

def isComplete (s : Scan) : Bool :=
  s.stuck?.isNone

end Scan

def isSeparator (c : Char) : Bool :=
  c == ' ' || c == '\t' || c == '\r'

theorem length_dropWhile_le {α : Type} (p : α -> Bool) (xs : List α) :
    (xs.dropWhile p).length ≤ xs.length :=
  (List.dropWhile_sublist p).length_le

/--
The scan of the characters from a given byte and line on.  At a fresh start, with no token
yet or right after a line end, a further line end is no token.
-/
def scanFrom (offset line : Nat) (fresh : Bool) : List Char -> Scan
  | [] => ⟨[], .complete line⟩
  | c :: cs =>
      if c = '\n' then
        let scan := scanFrom (offset + 1) (line + 1) true cs
        if fresh then scan else scan.cons ⟨.newline, offset, 1, line, "\n"⟩
      else if isSeparator c then
        scanFrom (offset + 1) line fresh cs
      else if c = '#' then
        let comment := cs.takeWhile (· ≠ '\n')
        scanFrom (offset + 1 + Text.byteSize comment) line fresh (cs.dropWhile (· ≠ '\n'))
      else
        match _h : Lexeme.next? (c :: cs) with
        | none => ⟨[], .stuck offset line⟩
        | some l => (scanFrom (offset + l.width) line false l.rest).cons (l.toToken offset line)
termination_by cs => cs.length
decreasing_by
  · simp
  · simp
  · have := length_dropWhile_le (fun x => decide (x ≠ '\n')) cs
    simp at this ⊢
    omega
  · exact Lexeme.length_rest_lt _h

def scan (source : String) : Scan :=
  scanFrom 0 1 true source.toList

/-!
## One source after another

A lexer is kept from one source to the next.  Each scan empties it first and then puts the tokens
it finds behind those that are there.
-/

def isFresh (ts : List Token) : Bool :=
  ts.getLast?.all fun t => t.kind == .newline

structure Lexer where
  tokens : List Token := []
  stuckAt : Option (Nat × Nat) := none
  deriving DecidableEq, Repr

namespace Lexer

def clear (_ : Lexer) : Lexer :=
  {}

/--
The lexer with the tokens of some characters put behind its own.  Only a scan that gets stuck
has a place to note.
-/
def extend (l : Lexer) (cs : List Char) : Lexer × ScanEnd :=
  let found := scanFrom 0 1 (isFresh l.tokens) cs
  ({ tokens := l.tokens ++ found.tokens, stuckAt := found.stuck?.or l.stuckAt }, found.finish)

def scan (l : Lexer) (source : String) : Lexer × ScanEnd :=
  l.clear.extend source.toList

end Lexer
end BehaviorScript
