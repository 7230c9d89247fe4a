/-
A scanner walks over a source once, from its first character to its last. It keeps what is still to be read, how many
characters were read, the location of the next one, and whether the token for the end of the input was given out. It
never stops at bad input: whatever fits nowhere becomes an illegal token.

A scanner is a source of tokens. The last one is the token for the end; after it the scanner is dry.

Main statement: `Scanner.size_next?_lt`, every token leaves less to read.
-/
import LetFront.Token.Gap
import LetFront.Token.Lexeme
import LetFront.Token.Source

namespace LetFront

structure Scanner where
  rest : List Char
  offset : Nat
  location : Location
  finished : Bool
  deriving DecidableEq, Repr

namespace Scanner

/-- a scanner at the beginning of a source -/
def ofString (source : String) : Scanner := ⟨source.toList, 0, .start, false⟩

/-- the next character, NUL at the end -/
def current (s : Scanner) : Char := s.rest.headD '\x00'

/-- the character after the next one, NUL where there is none -/
def following (s : Scanner) : Char := s.rest.tail.headD '\x00'

def atEnd (s : Scanner) : Bool := s.rest.isEmpty

/-- walk over `n` characters, or as many as there are -/
def advance (s : Scanner) (n : Nat) : Scanner :=
  { s with
    rest := s.rest.drop n
    offset := s.offset + (s.rest.take n).length
    location := s.location.past (s.rest.take n) }

def skipChar (s : Scanner) : Scanner := s.advance 1

def skipSpace (s : Scanner) : Scanner := s.advance (s.rest.takeWhile isSpace).length

/-- walk up to the next line feed -/
def skipLine (s : Scanner) : Scanner := s.advance (s.rest.takeWhile (· ≠ '\n')).length

/-- walk over white space and comments -/
def skipGap (s : Scanner) : Scanner := s.advance (gap s.rest).length

/-- the token of a lexeme that stands at the front, and the scanner after it -/
def emit (s : Scanner) (x : Lexeme) : Token × Scanner :=
  (⟨x.kind, String.ofList x.text, s.location⟩, s.advance x.text.length)

/-- read what stands at the front as a number -/
def readNumber (s : Scanner) : Token × Scanner := s.emit (.number false s.rest)

/-- read what stands at the front as a word -/
def readWord (s : Scanner) : Token × Scanner := s.emit (.word s.rest)

/-- read the token that begins at the front -/
def readLexeme (s : Scanner) : Token × Scanner :=
  match s.rest with
  | [] => (⟨.endOfInput, "", s.location⟩, { s with finished := true })
  | c :: cs => s.emit (.first c cs)

/-- the next token, again and again the one for the end once that is reached -/
def read (s : Scanner) : Token × Scanner := s.skipGap.readLexeme

/-- the next token, unless the one for the end was given out -/
def next? (s : Scanner) : Option (Token × Scanner) := if s.finished then none else some s.read

/-- a bound on the tokens that are left -/
def size (s : Scanner) : Nat := if s.finished then 0 else s.rest.length + 1

theorem advance_finished (s : Scanner) (n : Nat) : (s.advance n).finished = s.finished := rfl

theorem length_skipGap_le (s : Scanner) : s.skipGap.rest.length ≤ s.rest.length := by
  simp [skipGap, advance]

theorem size_readLexeme_lt (s : Scanner) (h : s.finished = false) : s.readLexeme.2.size < s.size := by
  unfold readLexeme
  split
  · simp [size, h]
  · next c cs hr =>
    have hpos := List.length_pos_iff.2 (Lexeme.first_text_ne_nil c cs)
    simp [emit, size, advance, h, hr]
    omega

theorem size_next?_lt {s s' : Scanner} {t : Token} (h : s.next? = some (t, s')) : s'.size < s.size := by
  unfold next? at h
  split at h
  · simp at h
  · next hf =>
    simp only [Bool.not_eq_true] at hf
    have hlt := size_readLexeme_lt s.skipGap hf
    have hle := length_skipGap_le s
    have hs : s' = s.skipGap.readLexeme.2 := by
      have := Option.some.inj h
      rw [read] at this
      rw [this]
    rw [hs]
    have : s.skipGap.size ≤ s.size := by
      simp only [size, skipGap, advance_finished, hf] at hle ⊢
      simpa [skipGap] using hle
    omega

instance : TokenSource Scanner where
  next? := next?
  size := size
  size_lt := size_next?_lt

end Scanner

/-- every token of a source, the one for the end included -/
def tokens (source : String) : List Token := (TokenSource.drain (Scanner.ofString source)).1

end LetFront
