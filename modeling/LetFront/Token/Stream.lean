/-
A token stream is a source of tokens with room for one token that was looked at and not taken. Taking a token gives the
held one if there is one, and else pulls one from the source.

Main statements: `TokenStream.size_next?_lt`, taking a token makes a stream smaller; `TokenStream.size_hold`, holding it
makes the stream larger by one, so a stream does not grow by looking.
-/
import LetFront.Token.Source

namespace LetFront

structure TokenStream (σ : Type) where
  lookahead : Option Token
  source : σ
  deriving DecidableEq

namespace TokenStream

variable {σ : Type}

/-- a stream over a source of which nothing was looked at -/
def ofSource (source : σ) : TokenStream σ := ⟨none, source⟩

/-- the stream with `t` held in front of it -/
def hold (t : Token) (s : TokenStream σ) : TokenStream σ := { s with lookahead := some t }

variable [TokenSource σ]

/-- the token at the front and the stream after it -/
def next? (s : TokenStream σ) : Option (Token × TokenStream σ) :=
  match s.lookahead with
  | some t => some (t, ⟨none, s.source⟩)
  | none => (TokenSource.next? s.source).map fun r => (r.1, ⟨none, r.2⟩)

/-- a bound on the tokens that are left -/
def size (s : TokenStream σ) : Nat := TokenSource.size s.source + s.lookahead.toList.length

theorem next?_hold (t : Token) (s : TokenStream σ) : (s.hold t).next? = some (t, ⟨none, s.source⟩) := rfl

theorem lookahead_of_next? {s s' : TokenStream σ} {t : Token} (h : s.next? = some (t, s')) : s'.lookahead = none := by
  unfold next? at h
  split at h
  · obtain ⟨rfl, rfl⟩ := Prod.mk.inj (Option.some.inj h)
    rfl
  · obtain ⟨r, _, hr⟩ := Option.map_eq_some_iff.1 h
    obtain ⟨rfl, rfl⟩ := Prod.mk.inj hr
    rfl

theorem size_next?_lt {s s' : TokenStream σ} {t : Token} (h : s.next? = some (t, s')) : s'.size < s.size := by
  unfold next? at h
  split at h
  · next u hu =>
    obtain ⟨rfl, rfl⟩ := Prod.mk.inj (Option.some.inj h)
    simp [size, hu]
  · next hu =>
    obtain ⟨r, hr, hs⟩ := Option.map_eq_some_iff.1 h
    obtain ⟨rfl, rfl⟩ := Prod.mk.inj hs
    have hlt := TokenSource.size_lt hr
    simp only [size, hu, Option.toList_none, List.length_nil]
    omega

theorem size_hold {s s' : TokenStream σ} {t u : Token} (h : s.next? = some (t, s')) :
    (s'.hold u).size = s'.size + 1 := by
  simp [size, hold, lookahead_of_next? h]

end TokenStream

end LetFront
