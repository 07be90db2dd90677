/-!
# Digests of text

A 64-bit digest that folds the code points of a text into a running value. It
only spreads keys over stripes: no answer depends on it, and two texts may
share a digest.
-/

namespace ModelRegistry.TextDigest

/-- The digest of the empty text. -/
def start : UInt64 := 14695981039346656037

/-- Folds one number into a digest. -/
def mix (digest word : UInt64) : UInt64 := (digest ^^^ word) * 1099511628211

/-- Folds a text and its end into a digest, so that adjacent texts do not run
together. -/
def mixText (digest : UInt64) (text : String) : UInt64 :=
  mix (text.toList.foldl (fun d c => mix d c.val.toUInt64) digest) 0x110000

end ModelRegistry.TextDigest
