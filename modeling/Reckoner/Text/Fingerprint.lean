/-!
# Fingerprints

A fingerprint is a number of 64 bits that stands for a text.  It is made from the bytes of the
text in UTF-8, one after the other, so that texts which are written one after the other have the
fingerprint of the joined text.  Different texts can have the same fingerprint.
-/

namespace Reckoner

/-- The fingerprint of the empty text. -/
def fingerprintStart : UInt64 := 0xcbf29ce484222325

/-- The factor by which a fingerprint is multiplied after each byte. -/
def fingerprintFactor : UInt64 := 0x100000001b3

def takeByte (h : UInt64) (b : UInt8) : UInt64 := (h ^^^ b.toUInt64) * fingerprintFactor

def takeChar (h : UInt64) (c : Char) : UInt64 := (String.utf8EncodeChar c).foldl takeByte h

def takeText (h : UInt64) (text : String) : UInt64 := text.toList.foldl takeChar h

def fingerprint (text : String) : UInt64 := takeText fingerprintStart text

/-- Two texts one after the other are taken in as the joined text is. -/
theorem takeText_append (h : UInt64) (a b : String) :
    takeText h (a ++ b) = takeText (takeText h a) b := by
  simp [takeText, List.foldl_append]

end Reckoner
