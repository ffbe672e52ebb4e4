/-! # Code pages

Encodings in which each byte is a character.  The bytes below some number are the
characters of that number, and the others are listed.
-/
namespace Replatform
namespace Text

/-- An encoding of characters as single bytes. -/
structure CodePage where
  /-- The first byte that is not the character of its number. -/
  start : Nat
  /-- The characters of the bytes from `start` on; the noncharacter U+FFFE stands for none. -/
  chars : String

namespace CodePage

/-- The character of a byte. -/
def charOf? (p : CodePage) (b : UInt8) : Option Char :=
  if b.toNat < p.start then some (Char.ofNat b.toNat)
  else (p.chars.toList[b.toNat - p.start]?).filter (· ≠ '\ufffe')

/-- The characters of ASCII. -/
def ascii : CodePage := ⟨0x80, ""⟩

/-- Latin with Western European letters: every byte is the character of its number. -/
def latin1 : CodePage := ⟨0x100, ""⟩

/-- The Central European letters of Windows. -/
def windows1250 : CodePage where
  start := 0x80
  chars := "€\ufffe‚\ufffe„…†‡\ufffe‰Š‹ŚŤŽŹ\ufffe‘’“”•–—\ufffe™š›śťžź\u00a0ˇ˘Ł¤Ą¦§¨©Ş«¬\u00ad®Ż°±˛ł´" ++
    "µ¶·¸ąş»Ľ˝ľżŔÁÂĂÄĹĆÇČÉĘËĚÍÎĎĐŃŇÓÔŐÖ×ŘŮÚŰÜÝŢßŕáâăäĺćçčéęëěíîďđńňóôőö÷řůúűüýţ˙"

/-- The Cyrillic letters of Windows. -/
def windows1251 : CodePage where
  start := 0x80
  chars := "ЂЃ‚ѓ„…†‡€‰Љ‹ЊЌЋЏђ‘’“”•–—\ufffe™љ›њќћџ\u00a0ЎўЈ¤Ґ¦§Ё©Є«¬\u00ad®Ї°±Ііґµ¶·ё№є»јЅѕїАБВГДЕЖЗИ" ++
    "ЙКЛМНОПРСТУФХЦЧШЩЪЫЬЭЮЯабвгдежзийклмнопрстуфхцчшщъыьэюя"

/-- The Western letters of Windows. -/
def windows1252 : CodePage where
  start := 0x80
  chars := "€\ufffe‚ƒ„…†‡ˆ‰Š‹Œ\ufffeŽ\ufffe\ufffe‘’“”•–—˜™š›œ\ufffežŸ\u00a0¡¢£¤¥¦§¨©ª«¬\u00ad®¯°±²³´" ++
    "µ¶·¸¹º»¼½¾¿ÀÁÂÃÄÅÆÇÈÉÊËÌÍÎÏÐÑÒÓÔÕÖ×ØÙÚÛÜÝÞßàáâãäåæçèéêëìíîïðñòóôõö÷øùúûüýþÿ"

/-- The letters of the first personal computers. -/
def ibm437 : CodePage where
  start := 0x80
  chars := "ÇüéâäàåçêëèïîìÄÅÉæÆôöòûùÿÖÜ¢£¥₧ƒáíóúñÑªº¿⌐¬½¼¡«»░▒▓│┤╡╢╖╕╣║╗╝╜╛┐└┴┬├─┼╞╟╚╔╩╦╠═╬╧╨╤╥╙╘╒╓╫" ++
    "╪┘┌█▄▌▐▀αßΓπΣσµτΦΘΩδ∞φε∩≡±≥≤⌠⌡÷≈°∙·√ⁿ²■\u00a0"

/-- The Western letters of DOS. -/
def ibm850 : CodePage where
  start := 0x80
  chars := "ÇüéâäàåçêëèïîìÄÅÉæÆôöòûùÿÖÜø£Ø×ƒáíóúñÑªº¿®¬½¼¡«»░▒▓│┤ÁÂÀ©╣║╗╝¢¥┐└┴┬├─┼ãÃ╚╔╩╦╠═╬¤ðÐÊËÈıÍÎ" ++
    "Ï┘┌█▄¦Ì▀ÓßÔÒõÕµþÞÚÛÙýÝ¯´\u00ad±‗¾¶§÷¸°¨·¹³²■\u00a0"

/-- The Cyrillic letters of DOS. -/
def ibm866 : CodePage where
  start := 0x80
  chars := "АБВГДЕЖЗИЙКЛМНОПРСТУФХЦЧШЩЪЫЬЭЮЯабвгдежзийклмноп░▒▓│┤╡╢╖╕╣║╗╝╜╛┐└┴┬├─┼╞╟╚╔╩╦╠═╬╧╨╤╥╙╘╒╓╫" ++
    "╪┘┌█▄▌▐▀рстуфхцчшщъыьэюяЁёЄєЇїЎў°∙·√№¤■\u00a0"

/-- Latin with Central European letters. -/
def latin2 : CodePage where
  start := 0xA0
  chars := "\u00a0Ą˘Ł¤ĽŚ§¨ŠŞŤŹ\u00adŽŻ°ą˛ł´ľśˇ¸šşťź˝žżŔÁÂĂÄĹĆÇČÉĘËĚÍÎĎĐŃŇÓÔŐÖ×ŘŮÚŰÜÝŢßŕáâăäĺćçčéęëěí" ++
    "îďđńňóôőö÷řůúűüýţ˙"

/-- Latin and Cyrillic. -/
def cyrillic : CodePage where
  start := 0xA0
  chars := "\u00a0ЁЂЃЄЅІЇЈЉЊЋЌ\u00adЎЏАБВГДЕЖЗИЙКЛМНОПРСТУФХЦЧШЩЪЫЬЭЮЯабвгдежзийклмнопрстуфхцчшщъыьэ" ++
    "юя№ёђѓєѕіїјљњћќ§ўџ"

/-- Latin and Greek. -/
def greek : CodePage where
  start := 0xA0
  chars := "\u00a0‘’£€₯¦§¨©ͺ«¬\u00ad\ufffe―°±²³΄΅Ά·ΈΉΊ»Ό½ΎΏΐΑΒΓΔΕΖΗΘΙΚΛΜΝΞΟΠΡ\ufffeΣΤΥΦΧΨΩΪΫάέήίΰαβγ" ++
    "δεζηθικλμνξοπρςστυφχψωϊϋόύώ\ufffe"

/-- Western European letters with the euro sign. -/
def latin9 : CodePage where
  start := 0xA0
  chars := "\u00a0¡¢£€¥Š§š©ª«¬\u00ad®¯°±²³Žµ¶·ž¹º»ŒœŸ¿ÀÁÂÃÄÅÆÇÈÉÊËÌÍÎÏÐÑÒÓÔÕÖ×ØÙÚÛÜÝÞßàáâãäåæçèéêëìí" ++
    "îïðñòóôõö÷øùúûüýþÿ"

/-- The Russian letters of Unix. -/
def koi8r : CodePage where
  start := 0x80
  chars := "─│┌┐└┘├┤┬┴┼▀▄█▌▐░▒▓⌠■∙√≈≤≥\u00a0⌡°²·÷═║╒ё╓╔╕╖╗╘╙╚╛╜╝╞╟╠╡Ё╢╣╤╥╦╧╨╩╪╫╬©юабцдефгхийклмнопяр" ++
    "стужвьызшэщчъЮАБЦДЕФГХИЙКЛМНОПЯРСТУЖВЬЫЗШЭЩЧЪ"

/-- The Western letters of the Macintosh. -/
def macRoman : CodePage where
  start := 0x80
  chars := "ÄÅÇÉÑÖÜáàâäãåçéèêëíìîïñóòôöõúùûü†°¢£§•¶ß®©™´¨≠ÆØ∞±≤≥¥µ∂∑∏π∫ªºΩæø¿¡¬√ƒ≈∆«»…\u00a0ÀÃÕŒœ–—“" ++
    "”‘’÷◊ÿŸ⁄€‹›ﬁﬂ‡·‚„‰ÂÊÁËÈÍÎÏÌÓÔ\uf8ffÒÚÛÙıˆ˜¯˘˙˚¸˝˛ˇ"

/-- The code pages with the names that they go by. -/
def names : List (CodePage × List String) := [
  (latin1, [
    "latin_1", "8859", "cp819", "csisolatin1", "ibm819", "iso8859", "iso8859_1", "iso_8859_1",
    "iso_8859_1_1987", "iso_ir_100", "l1", "latin", "latin1"]),
  (windows1250, ["cp1250", "1250", "windows_1250"]),
  (windows1251, ["cp1251", "1251", "windows_1251"]),
  (windows1252, ["cp1252", "1252", "windows_1252"]),
  (ibm437, ["cp437", "437", "cspc8codepage437", "ibm437"]),
  (ibm850, ["cp850", "850", "cspc850multilingual", "ibm850"]),
  (ibm866, ["cp866", "866", "csibm866", "ibm866"]),
  (latin2, [
    "iso8859_2", "csisolatin2", "iso_8859_2", "iso_8859_2_1987", "iso_ir_101", "l2", "latin2"]),
  (cyrillic, [
    "iso8859_5", "csisolatincyrillic", "cyrillic", "iso_8859_5", "iso_8859_5_1988",
    "iso_ir_144"]),
  (greek, [
    "iso8859_7", "csisolatingreek", "ecma_118", "elot_928", "greek", "greek8", "iso_8859_7",
    "iso_8859_7_1987", "iso_ir_126"]),
  (latin9, ["iso8859_15", "iso_8859_15", "l9", "latin9"]),
  (koi8r, ["koi8_r", "cskoi8r"]),
  (macRoman, ["mac_roman", "macintosh", "macroman"])]

end CodePage
end Text
end Replatform
