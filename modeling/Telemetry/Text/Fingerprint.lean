import Telemetry.Text.Utf8

/-!
Fingerprints of lists of texts: words that stand for them where only equality counts. Every byte is
mixed into the word by exclusive or, and the word is then multiplied by a fixed prime, modulo
`2 ^ 64`. A byte that no text holds closes each text, so no two lists are mixed in from the same
bytes; their words can agree all the same. Where texts are mixed in one after another with nothing
between them, lists with one concatenation agree besides.
-/

namespace Telemetry

abbrev Fingerprint := UInt64

namespace Fingerprint

/-- The word before any byte is mixed in. -/
def start : Fingerprint := 0xcbf29ce484222325

def prime : UInt64 := 0x100000001b3

def absorb (word : Fingerprint) (b : UInt8) : Fingerprint := (word ^^^ b.toUInt64) * prime

/-- The byte behind each text; UTF-8 has no use for it. -/
def closing : UInt8 := 0xff

def bytes (texts : List String) : List UInt8 :=
  texts.flatMap fun text => Utf8.encode text ++ [closing]

def ofTexts (texts : List String) : Fingerprint := (bytes texts).foldl absorb start

def ofJoined (texts : List String) : Fingerprint := (texts.flatMap Utf8.encode).foldl absorb start

end Fingerprint

end Telemetry
