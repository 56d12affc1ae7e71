import Highlighter.Text.Basic

/-!
# Colours

A colour has a red, a green, a blue and an alpha channel of one byte each. It is written as a hash
and two hexadecimal digits a channel, where the alpha channel may be left out.
-/

namespace Highlighter

/-- A colour by its channels. -/
structure Color where
  r : UInt8
  g : UInt8
  b : UInt8
  a : UInt8
  deriving DecidableEq, Repr

namespace Color

/-- The opaque colour with the given channels. -/
def rgb (r g b : UInt8) : Color :=
  ⟨r, g, b, 255⟩

/-- The same colour with another alpha channel. -/
def withAlpha (color : Color) (a : UInt8) : Color :=
  { color with a }

/-- The value of a hexadecimal digit. -/
def hexValue? (c : Char) : Option Nat :=
  if c.isDigit then some (c.toNat - '0'.toNat)
  else if 'a' ≤ c && c ≤ 'f' then some (c.toNat - 'a'.toNat + 10)
  else if 'A' ≤ c && c ≤ 'F' then some (c.toNat - 'A'.toNat + 10)
  else none

/-- The channel written by two characters: two hexadecimal digits, or a plus sign and one. -/
def channel? : Text → Option UInt8
  | [high, low] => do
      let high ← if high = '+' then some 0 else hexValue? high
      let low ← hexValue? low
      pure (UInt8.ofNat (16 * high + low))
  | _ => none

/-- The colour written by a text of six or eight bytes, after any number of hashes. -/
def ofHex? (text : Text) : Option Color :=
  let digits := text.dropWhile (· = '#')
  let channel (index : Nat) : Option UInt8 :=
    Text.slice? (2 * index) (2 * index + 2) digits >>= channel?
  let size := Text.byteLength digits
  if size = 6 then do
    pure (rgb (← channel 0) (← channel 1) (← channel 2))
  else if size = 8 then do
    pure ⟨← channel 0, ← channel 1, ← channel 2, ← channel 3⟩
  else none

/-- One channel of a colour laid over an opaque one. -/
def mix (alpha top bottom : UInt8) : UInt8 :=
  UInt8.ofNat ((top.toNat * alpha.toNat + bottom.toNat * (255 - alpha.toNat)) / 255)

/-- A colour laid over an opaque one. -/
def blendOver (color base : Color) : Color :=
  rgb (mix color.a color.r base.r) (mix color.a color.g base.g) (mix color.a color.b base.b)

/-- The two hexadecimal digits of a channel. -/
def channelHex (channel : UInt8) : Text :=
  let digits := Nat.toDigits 16 channel.toNat
  List.replicate (2 - digits.length) '0' ++ digits

/-- A colour as text, without its alpha channel. -/
def toHex (color : Color) : Text :=
  '#' :: channelHex color.r ++ channelHex color.g ++ channelHex color.b

end Color

end Highlighter
