import BotsterHub.Capability.Runtime
import BotsterHub.Lib.Bytes
import Mathlib.Data.FinEnum

/-!
The namespace of a plugin in the plugin database.

The text is an escape code of the plugin's identity, byte by byte. It can be read back, so no two
identities share a namespace.
-/

namespace BotsterHub.Store

open Capability

variable (byte : UInt8)

def isAsciiLowercase : Bool := 0x61 ≤ byte && byte ≤ 0x7a

def isAsciiDigit : Bool := 0x30 ≤ byte && byte ≤ 0x39

def passesThrough : Bool := isAsciiLowercase byte || isAsciiDigit byte || byte == 0x2d

def hexDigit (n : ℕ) : Char := Char.ofNat (if n < 10 then 0x30 + n else 0x61 + (n - 10))

def escapeByte : List Char :=
  if passesThrough byte then [Char.ofNat byte.toNat]
  else ['_', hexDigit (byte.toNat / 16), hexDigit (byte.toNat % 16)]

def pluginNamespaceText (pluginKey : PluginKey) : String :=
  String.ofList (pluginKey.toByteArray.data.toList.flatMap escapeByte)

example : pluginNamespaceText "a/b" = "a_2fb" ∧ pluginNamespaceText "a_b" = "a_5fb" := by
  decide +kernel

def hexValue (c : Char) : ℕ := if c.toNat < 0x61 then c.toNat - 0x30 else c.toNat - 0x61 + 10

def readByte : List Char → Option (UInt8 × List Char)
  | [] => none
  | c :: rest =>
    if c = '_' then
      match rest with
      | high :: low :: rest => some (UInt8.ofNat (16 * hexValue high + hexValue low), rest)
      | _ => none
    else some (UInt8.ofNat c.toNat, rest)

theorem plain_byte : ∀ byte : UInt8, passesThrough byte = true →
    Char.ofNat byte.toNat ≠ '_' ∧ UInt8.ofNat (Char.ofNat byte.toNat).toNat = byte := by
  decide +kernel

theorem escaped_byte : ∀ byte : UInt8, UInt8.ofNat
    (16 * hexValue (hexDigit (byte.toNat / 16)) + hexValue (hexDigit (byte.toNat % 16))) =
      byte := by
  decide +kernel

theorem readByte_escapeByte (rest : List Char) :
    readByte (escapeByte byte ++ rest) = some (byte, rest) := by
  rw [escapeByte]
  split
  · next hp =>
    obtain ⟨hne, hb⟩ := plain_byte byte hp
    simp [readByte, hne, hb]
  · exact congrArg (fun b => some (b, rest)) (escaped_byte byte)

theorem pluginNamespaceText_injective : Function.Injective pluginNamespaceText := by
  intro key key' h
  have hb := flatMap_injective_of_read rfl readByte_escapeByte (String.ofList_injective h)
  exact String.toByteArray_inj.mp (ByteArray.ext (Array.toList_inj.mp hb))

def isNamespaceLetter (c : Char) : Bool := c.isLower || c.isDigit || c == '-' || c == '_'

-- `List.all`, and not a bounded quantifier: the letters are not searched among all characters.
theorem escapeByte_letters : ∀ byte : UInt8, (escapeByte byte).all isNamespaceLetter = true := by
  decide +kernel

theorem pluginNamespaceText_letters (p : PluginKey) :
    ∀ c ∈ (pluginNamespaceText p).toList, isNamespaceLetter c = true := by
  intro c hc
  rw [pluginNamespaceText, String.toList_ofList, List.mem_flatMap] at hc
  obtain ⟨byte, -, hc⟩ := hc
  exact List.all_eq_true.mp (escapeByte_letters byte) c hc

end BotsterHub.Store
