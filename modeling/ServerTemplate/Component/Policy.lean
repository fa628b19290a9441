import ServerTemplate.Json.Value
import ServerTemplate.Text.Blank
import ServerTemplate.Text.Case

/-!
# Escape policies

A policy says how a value is encoded before it reaches the markup. Declarations name policies by
tokens, of which two policies have two; a token is read without regard to case and surrounding
blanks, and a word that is no token names no policy.
-/

namespace ServerTemplate

/-- How a value is encoded before it reaches the markup. -/
inductive EscapePolicy where
  | html
  | url
  | attr
  | script
  /-- The value is written as it is. -/
  | raw
  deriving DecidableEq, Repr

namespace EscapePolicy

/-- The name of a policy, which is also a token for it. -/
def name : EscapePolicy → String
  | html => "html"
  | url => "url"
  | attr => "attr"
  | script => "js"
  | raw => "none"

/-- The function that encodes a value, unless it is written as it is. -/
def function? : EscapePolicy → Option String
  | html => some "esc_html"
  | url => some "esc_url"
  | attr => some "esc_attr"
  | script => some "esc_js"
  | raw => none

/-- The tokens and their policies, in the order of the tokens. -/
def tokens : List (String × EscapePolicy) :=
  [("attr", attr), ("attribute", attr), ("html", html), ("js", script), ("none", raw),
    ("script", script), ("url", url)]

/-- The policy that a declared value names. -/
def ofToken? (token : Json) : Option EscapePolicy :=
  let word := Text.asciiLower (Text.trim token.display)
  (tokens.find? fun t => t.1 == word).map (·.2)

end EscapePolicy

end ServerTemplate
