/-
# The strings of str.c on the heap

A `struct mystr` is a buffer that malloc gave, the length of the string in it and
the size of the buffer. Here the functions of str.c run on a set of such strings,
with what C has and the model of their values leaves out: lengths of 32 bits that
wrap, allocations that may fail and whose bytes can be anything, and accesses that
may be outside a buffer, which stop the run.

That a sum or difference of lengths has wrapped is noted in the state (`wrapped`),
which no function reads.

Key definitions: `MyStr`, `StrHeap`, `StrOp`, `StrOp.exec`.
-/
import Mathlib.Logic.Function.Basic
import CosFtp.Lib.Wp
import CosFtp.Prelogin

namespace CosFtp

open Wp (when)

/-! ### Strings and memory -/

/-- A `struct mystr`, with all the bytes of its buffer. -/
structure MyStr where
  pBuf : Option Bytes
  len : ℕ
  allocBytes : ℕ

/-- `INIT_MYSTR`. -/
def initMystr : MyStr := ⟨none, 0, 0⟩

/-- How a run ends early: in `bug` or `die`, with an access outside a buffer, or not at all. -/
inductive StrFault where
  | bug (text : String)
  | die (text : String)
  | outside
  | running
  deriving DecidableEq

/-- The strings of the callers, and those that are static in `str_lpad` and `str_replace_text`. -/
inductive StrName (ι : Type) where
  | var (i : ι)
  | tmp
  | lhsChunk
  | rhsChunk
  deriving DecidableEq

structure StrHeap (ι : Type) where
  strs : StrName ι → MyStr
  /-- What malloc and realloc give, one after the other: nothing, or memory with these bytes. -/
  fresh : ℕ → Option (ℕ → UInt8)
  allocs : ℕ
  /-- A sum or a difference of lengths has wrapped. -/
  wrapped : Bool

/-- A pointer to bytes elsewhere, or into the buffer of a string. -/
inductive StrPtr (ι : Type) where
  | bytes (b : Bytes)
  | buf (name : StrName ι) (off : ℕ)

abbrev StrM (ι : Type) := EStateM StrFault (StrHeap ι)

def intMax : ℕ := 2 ^ 31 - 1

namespace StrHeap

variable {ι : Type}

/-- All strings are as `INIT_MYSTR` leaves them. -/
def init (fresh : ℕ → Option (ℕ → UInt8)) : StrHeap ι := ⟨fun _ => initMystr, fresh, 0, false⟩

/-- Arithmetic on `unsigned int`. -/
def uadd (a b : ℕ) : StrM ι ℕ := do
  modify fun s => { s with wrapped := s.wrapped || decide (2 ^ 32 ≤ a + b) }
  return (a + b) % 2 ^ 32

def usub (a b : ℕ) : StrM ι ℕ := do
  modify fun s => { s with wrapped := s.wrapped || decide (a < b) }
  return (a + (2 ^ 32 - b)) % 2 ^ 32

/-- The next memory from the C library. -/
def freshBytes (call : String) (size : ℕ) : StrM ι Bytes := do
  let s ← get
  set { s with allocs := s.allocs + 1 }
  match s.fresh s.allocs with
  | none => throw (.die call)
  | some byte => return (List.range size).map byte

def sysutilMalloc (size : ℕ) : StrM ι Bytes :=
  if size = 0 ∨ intMax < size then throw (.bug "zero or big size in vsf_sysutil_malloc")
  else freshBytes "malloc" size

def sysutilRealloc (p : Option Bytes) (size : ℕ) : StrM ι Bytes :=
  if size = 0 ∨ intMax < size then throw (.bug "zero or big size in vsf_sysutil_realloc")
  else do
    let fresh ← freshBytes "realloc" size
    return (p.getD []).take size ++ fresh.drop (p.getD []).length

def sysutilStrlen (p : Bytes) : StrM ι ℕ :=
  if intMax / 8 < (cstr p).length then throw (.die "string suspiciously long") else return (cstr p).length

variable [DecidableEq ι]

def getStr (name : StrName ι) : StrM ι MyStr := do return (← get).strs name

def modStr (name : StrName ι) (f : MyStr → MyStr) : StrM ι Unit :=
  modify fun s => { s with strs := Function.update s.strs name (f (s.strs name)) }

/-- The buffer that a pointer is followed to. -/
def buffer (name : StrName ι) : StrM ι Bytes := do
  match ((← get).strs name).pBuf with
  | none => throw .outside
  | some buf => return buf

def loadByte (name : StrName ι) (i : ℕ) : StrM ι UInt8 := do
  let buf ← buffer name
  match buf[i]? with
  | none => throw .outside
  | some b => return b

def storeByte (name : StrName ι) (i : ℕ) (b : UInt8) : StrM ι Unit := do
  let buf ← buffer name
  if i < buf.length then modStr name fun str => { str with pBuf := some (buf.set i b) } else throw .outside

/-- The `size` bytes at a pointer. -/
def loadBytes (src : StrPtr ι) (size : ℕ) : StrM ι Bytes :=
  match src with
  | .bytes b => if size ≤ b.length then return b.take size else throw .outside
  | .buf name off => do
    let buf ← buffer name
    if off + size ≤ buf.length then return (buf.drop off).take size else throw .outside

def sysutilMemcpy (dest : StrName ι) (off : ℕ) (src : StrPtr ι) (size : ℕ) : StrM ι Unit :=
  if size = 0 then return ()
  else if intMax < size then throw (.die "possible negative value to memcpy?")
  else do
    let chunk ← loadBytes src size
    let buf ← buffer dest
    if off + size ≤ buf.length then
      modStr dest fun str => { str with pBuf := some (buf.take off ++ chunk ++ buf.drop (off + size)) }
    else throw .outside

/-! ### The functions of str.c -/

/-- `s_setbuf`. -/
def setbuf (pStr : StrName ι) (newbuf : Bytes) : StrM ι Unit := do
  let str ← getStr pStr
  if str.pBuf.isSome then throw (.bug "p_buf not NULL when setting it")
  else modStr pStr fun str => { str with pBuf := some newbuf }

def strFree (pStr : StrName ι) : StrM ι Unit := modStr pStr fun _ => initMystr

def privateStrAllocMemchunk (pStr : StrName ι) (src : StrPtr ι) (len : ℕ) : StrM ι Unit := do
  let bufNeeded ← uadd len 1
  if bufNeeded < len then throw (.bug "integer overflow")
  else do
    let str ← getStr pStr
    when (str.allocBytes < bufNeeded) do
      strFree pStr
      let newbuf ← sysutilMalloc bufNeeded
      setbuf pStr newbuf
      modStr pStr fun str => { str with allocBytes := bufNeeded }
    sysutilMemcpy pStr 0 src len
    storeByte pStr len chNul
    modStr pStr fun str => { str with len := len }

def privateStrAppendMemchunk (pStr : StrName ι) (src : StrPtr ι) (len : ℕ) : StrM ι Unit := do
  let str ← getStr pStr
  let sum ← uadd len str.len
  if sum < len then throw (.bug "integer overflow")
  else do
    let bufNeeded ← uadd sum 1
    if bufNeeded < sum then throw (.bug "integer overflow")
    else do
      when (str.allocBytes < bufNeeded) do
        let newbuf ← sysutilRealloc str.pBuf bufNeeded
        modStr pStr fun str => { str with pBuf := some newbuf, allocBytes := bufNeeded }
      sysutilMemcpy pStr str.len src len
      let newLen ← uadd str.len len
      storeByte pStr newLen chNul
      modStr pStr fun str => { str with len := newLen }

def strAllocText (pStr : StrName ι) (src : Bytes) : StrM ι Unit := do
  let len ← sysutilStrlen src
  privateStrAllocMemchunk pStr (.bytes src) len

def strCopy (dest src : StrName ι) : StrM ι Unit := do
  let str ← getStr src
  privateStrAllocMemchunk dest (.buf src 0) str.len

/-- The loop of `str_alloc_alt_term`. -/
def altTermLoop (term : UInt8) : Bytes → ℕ → StrM ι ℕ
  | [], _ => throw .outside
  | b :: src, len =>
    if b = term then return len
    else do
      let len ← uadd len 1
      if len = 0 then throw (.bug "integer overflow") else altTermLoop term src len

def strAllocAltTerm (pStr : StrName ι) (src : Bytes) (term : UInt8) : StrM ι Unit := do
  let len ← altTermLoop term src 0
  privateStrAllocMemchunk pStr (.bytes src) len

def strAllocUlong (pStr : StrName ι) (theLong : UInt64) : StrM ι Unit := strAllocText pStr (ulongText theLong.toNat)

def strAllocFilesizeT (pStr : StrName ι) (theFilesize : Int64) : StrM ι Unit :=
  strAllocText pStr (intText theFilesize.toInt)

def strTrunc (pStr : StrName ι) (truncLen : ℕ) : StrM ι Unit := do
  let str ← getStr pStr
  if str.allocBytes ≤ truncLen then throw (.bug "trunc_len not smaller than alloc_bytes in str_trunc")
  else do
    modStr pStr fun str => { str with len := truncLen }
    storeByte pStr truncLen chNul

def strReserve (pStr : StrName ι) (resLen : ℕ) : StrM ι Unit := do
  let resLen ← uadd resLen 1
  if resLen = 0 then throw (.bug "integer overflow")
  else do
    let str ← getStr pStr
    when (str.allocBytes < resLen) do
      let newbuf ← sysutilRealloc str.pBuf resLen
      modStr pStr fun str => { str with pBuf := some newbuf, allocBytes := resLen }
    storeByte pStr (resLen - 1) chNul

/-- `str_getbuf`, for what it does to the string. -/
def strGetbuf (pStr : StrName ι) : StrM ι Unit := do
  let str ← getStr pStr
  when (str.pBuf.isNone) do
    if str.len ≠ 0 ∨ str.allocBytes ≠ 0 then throw (.bug "p_buf NULL and len or alloc_bytes != 0 in str_getbuf")
    else privateStrAllocMemchunk pStr (.bytes []) 0

def strEmpty (pStr : StrName ι) : StrM ι Unit := do
  strGetbuf pStr
  strTrunc pStr 0

def strAppendStr (pStr other : StrName ι) : StrM ι Unit := do
  let str ← getStr other
  privateStrAppendMemchunk pStr (.buf other 0) str.len

def strAppendText (pStr : StrName ι) (src : Bytes) : StrM ι Unit := do
  let len ← sysutilStrlen src
  privateStrAppendMemchunk pStr (.bytes src) len

def strAppendChar (pStr : StrName ι) (theChar : UInt8) : StrM ι Unit :=
  privateStrAppendMemchunk pStr (.bytes [theChar]) 1

def strAppendUlong (pStr : StrName ι) (theUlong : UInt64) : StrM ι Unit :=
  strAppendText pStr (ulongText theUlong.toNat)

def strAppendFilesizeT (pStr : StrName ι) (theFilesize : Int64) : StrM ι Unit :=
  strAppendText pStr (intText theFilesize.toInt)

def strAppendInt (pStr : StrName ι) (theInt : Int32) : StrM ι Unit := strAppendText pStr (intText theInt.toInt)

/-- `str_append_double`; `shown` is what `snprintf` makes of the number. -/
def strAppendDouble (pStr : StrName ι) (shown : Bytes) : StrM ι Unit := strAppendText pStr (shown.take 31)

/-- A loop over the first characters of a string. -/
def charLoop (pStr : StrName ι) (f : UInt8 → UInt8) : ℕ → ℕ → StrM ι Unit
  | _, 0 => return ()
  | i, k + 1 => do
    let b ← loadByte pStr i
    storeByte pStr i (f b)
    charLoop pStr f (i + 1) k

def mapChars (pStr : StrName ι) (f : UInt8 → UInt8) : StrM ι Unit := do
  let str ← getStr pStr
  charLoop pStr f 0 str.len

def strUpper (pStr : StrName ι) : StrM ι Unit := mapChars pStr toupper

def strReplaceChar (pStr : StrName ι) (cFrom cTo : UInt8) : StrM ι Unit :=
  mapChars pStr fun b => if b = cFrom then cTo else b

def strReplaceUnprintable (pStr : StrName ι) (newChar : UInt8) : StrM ι Unit :=
  mapChars pStr fun b => if isprint b then b else newChar

/-- The loop of `str_rpad` and `str_lpad`. -/
def padLoop (pStr : StrName ι) : ℕ → StrM ι Unit
  | 0 => return ()
  | toPad + 1 => do
    strAppendChar pStr chSpace
    padLoop pStr toPad

def strRpad (pStr : StrName ι) (minWidth : ℕ) : StrM ι Unit := do
  let str ← getStr pStr
  if minWidth ≤ str.len then return ()
  else do
    let toPad ← usub minWidth str.len
    padLoop pStr toPad

def strLpad (pStr : StrName ι) (minWidth : ℕ) : StrM ι Unit := do
  let str ← getStr pStr
  if minWidth ≤ str.len then return ()
  else do
    let toPad ← usub minWidth str.len
    strEmpty .tmp
    padLoop .tmp toPad
    strAppendStr .tmp pStr
    strCopy pStr .tmp

/-- `vsf_sysutil_memcmp` of a part of the buffer with a text. -/
def sysutilMemcmp (pStr : StrName ι) (i : ℕ) (p : Bytes) : StrM ι Bool :=
  if p.length = 0 then return true
  else do
    let chunk ← loadBytes (.buf pStr i) p.length
    return chunk = p

/-- The loop of `str_locate_text`, with the places that are left. -/
def locateLoop (pStr : StrName ι) (p : Bytes) : ℕ → ℕ → StrM ι (Option ℕ)
  | _, 0 => return none
  | i, k + 1 => do
    let same ← sysutilMemcmp pStr i p
    if same then return some i else locateLoop pStr p (i + 1) k

/-- The loop of `str_locate_text_reverse`. -/
def locateReverseLoop (pStr : StrName ι) (p : Bytes) : ℕ → StrM ι (Option ℕ)
  | 0 => do
    let same ← sysutilMemcmp pStr 0 p
    return if same then some 0 else none
  | i + 1 => do
    let same ← sysutilMemcmp pStr (i + 1) p
    if same then return some (i + 1) else locateReverseLoop pStr p i

/-- `str_locate_text` and `str_locate_text_reverse`: the index, if the text is found. -/
def strLocate (isReverse : Bool) (pStr : StrName ι) (p : Bytes) : StrM ι (Option ℕ) := do
  let textLen ← sysutilStrlen p
  let str ← getStr pStr
  if textLen = 0 ∨ str.len < textLen then return none
  else do
    let last ← usub str.len textLen
    if isReverse then locateReverseLoop pStr (cstr p) last else locateLoop pStr (cstr p) 0 (last + 1)

/-- `str_split_text_common`. -/
def strSplitTextCommon (src rhs : StrName ι) (p : Bytes) (isReverse : Bool) : StrM ι Unit := do
  let searchLen ← sysutilStrlen p
  let found ← strLocate isReverse src p
  match found with
  | none => strEmpty rhs
  | some indexx => do
    let str ← getStr src
    let stop ← uadd indexx searchLen
    if str.len < stop then throw (.bug "indexx invalid in str_split_text")
    else do
      let rest ← usub str.len indexx
      let rest ← usub rest searchLen
      privateStrAllocMemchunk rhs (.buf src (indexx + searchLen)) rest
      strTrunc src indexx

def strSplitText (src rhs : StrName ι) (p : Bytes) : StrM ι Unit := strSplitTextCommon src rhs p false

def strSplitTextReverse (src rhs : StrName ι) (p : Bytes) : StrM ι Unit := strSplitTextCommon src rhs p true

def strSplitChar (src rhs : StrName ι) (c : UInt8) : StrM ι Unit := strSplitText src rhs [c]

def strSplitCharReverse (src rhs : StrName ι) (c : UInt8) : StrM ι Unit := strSplitTextReverse src rhs [c]

/-- The loop of `str_replace_text`. -/
def replaceTextLoop (pStr : StrName ι) (pFrom pTo : Bytes) : ℕ → StrM ι Unit
  | 0 => throw .running
  | fuel + 1 => do
    let lhs ← getStr .lhsChunk
    strSplitText .lhsChunk .rhsChunk pFrom
    strAppendStr pStr .lhsChunk
    let cut ← getStr .lhsChunk
    when (cut.len < lhs.len) (strAppendText pStr pTo)
    strCopy .lhsChunk .rhsChunk
    let next ← getStr .lhsChunk
    if next.len = 0 then return () else replaceTextLoop pStr pFrom pTo fuel

def strReplaceText (pStr : StrName ι) (pFrom pTo : Bytes) : StrM ι Unit := do
  strCopy .lhsChunk pStr
  strFree pStr
  let lhs ← getStr .lhsChunk
  replaceTextLoop pStr pFrom pTo (lhs.len + 1)

def strLeft (pStr out : StrName ι) (chars : ℕ) : StrM ι Unit := do
  let str ← getStr pStr
  if str.len < chars then throw (.bug "chars invalid in str_left")
  else privateStrAllocMemchunk out (.buf pStr 0) chars

def strRight (pStr out : StrName ι) (chars : ℕ) : StrM ι Unit := do
  let str ← getStr pStr
  let indexx ← usub str.len chars
  if str.len < chars then throw (.bug "chars invalid in str_right")
  else privateStrAllocMemchunk out (.buf pStr indexx) chars

def strMidToEnd (pStr out : StrName ι) (indexx : ℕ) : StrM ι Unit := do
  let str ← getStr pStr
  if str.len < indexx then throw (.bug "invalid indexx in str_mid_to_end")
  else do
    let rest ← usub str.len indexx
    privateStrAllocMemchunk out (.buf pStr indexx) rest

/-- The loop of `str_getline`, with the characters that are left. -/
def lineLoop (pStr : StrName ι) : ℕ → ℕ → StrM ι ℕ
  | currPos, 0 => return currPos
  | currPos, k + 1 => do
    let b ← loadByte pStr currPos
    if b = chLf then return currPos
    else do
      let currPos ← uadd currPos 1
      if currPos = 0 then throw (.bug "integer overflow") else lineLoop pStr currPos k

/-- A line feed that ended the line is skipped. -/
def skipLf (pStr : StrName ι) (currPos bufLen : ℕ) : StrM ι ℕ :=
  if bufLen ≤ currPos then return currPos
  else do
    let b ← loadByte pStr currPos
    if b = chLf then do
      let currPos ← uadd currPos 1
      if currPos = 0 then throw (.bug "integer overflow") else return currPos
    else return currPos

/-- `str_getline`: the position behind the line, if there is one. -/
def strGetline (pStr pLineStr : StrName ι) (pos : ℕ) : StrM ι (Option ℕ) := do
  let str ← getStr pStr
  strGetbuf pStr
  if str.len < pos then throw (.bug "p_pos out of range in str_getline")
  else do
    strEmpty pLineStr
    if pos = str.len then return none
    else do
      let currPos ← lineLoop pStr pos (str.len - pos)
      let outLen ← usub currPos pos
      let next ← skipLf pStr currPos str.len
      privateStrAllocMemchunk pLineStr (.buf pStr pos) outLen
      return some next

end StrHeap

/-! ### The operations -/

/-- What is done to a string to truncate it or to append to it; the other string is another one. -/
inductive StrFill (ι : Type) (pStr : ι) where
  | trunc (truncLen : UInt32)
  | appendStr (other : ι) (h : other ≠ pStr)
  | appendText (src : Bytes)
  | appendChar (theChar : UInt8)
  | appendUlong (theUlong : UInt64)
  | appendFilesizeT (theFilesize : Int64)
  | appendInt (theInt : Int32)
  | appendDouble (shown : Bytes)

/-- The operations that change strings, on strings that are not the same. The bytes of `str_alloc_alt_term` have
the terminator among them, and those of a chunk can be counted in an `unsigned int`. -/
inductive StrOp (ι : Type) where
  | allocMemchunk (pStr : ι) (src : Bytes) (h : src.length < 2 ^ 32)
  | allocText (pStr : ι) (src : Bytes)
  | allocAltTerm (pStr : ι) (src : Bytes) (term : UInt8) (h : term ∈ src)
  | allocUlong (pStr : ι) (theLong : UInt64)
  | allocFilesizeT (pStr : ι) (theFilesize : Int64)
  | copy (dest src : ι) (h : src ≠ dest)
  | free (pStr : ι)
  | empty (pStr : ι)
  | getbuf (pStr : ι)
  | fill (pStr : ι) (how : StrFill ι pStr)
  | reserve (pStr : ι) (resLen : UInt32) (how : StrFill ι pStr)
  | upper (pStr : ι)
  | rpad (pStr : ι) (minWidth : UInt32)
  | lpad (pStr : ι) (minWidth : UInt32)
  | replaceChar (pStr : ι) (cFrom cTo : UInt8)
  | replaceUnprintable (pStr : ι) (newChar : UInt8)
  | replaceText (pStr : ι) (pFrom pTo : Bytes)
  | splitText (src rhs : ι) (h : src ≠ rhs) (p : Bytes)
  | splitTextReverse (src rhs : ι) (h : src ≠ rhs) (p : Bytes)
  | splitChar (src rhs : ι) (h : src ≠ rhs) (c : UInt8)
  | splitCharReverse (src rhs : ι) (h : src ≠ rhs) (c : UInt8)
  | left (pStr out : ι) (h : pStr ≠ out) (chars : UInt32)
  | right (pStr out : ι) (h : pStr ≠ out) (chars : UInt32)
  | midToEnd (pStr out : ι) (h : pStr ≠ out) (indexx : UInt32)
  | getline (pStr pLineStr : ι) (h : pStr ≠ pLineStr) (pos : UInt32)

variable {ι : Type} [DecidableEq ι]

def StrFill.exec {pStr : ι} : StrFill ι pStr → StrM ι Unit
  | trunc truncLen => StrHeap.strTrunc (.var pStr) truncLen.toNat
  | appendStr other _ => StrHeap.strAppendStr (.var pStr) (.var other)
  | appendText src => StrHeap.strAppendText (.var pStr) src
  | appendChar theChar => StrHeap.strAppendChar (.var pStr) theChar
  | appendUlong theUlong => StrHeap.strAppendUlong (.var pStr) theUlong
  | appendFilesizeT theFilesize => StrHeap.strAppendFilesizeT (.var pStr) theFilesize
  | appendInt theInt => StrHeap.strAppendInt (.var pStr) theInt
  | appendDouble shown => StrHeap.strAppendDouble (.var pStr) shown

def StrOp.exec : StrOp ι → StrM ι Unit
  | allocMemchunk pStr src _ => StrHeap.privateStrAllocMemchunk (.var pStr) (.bytes src) src.length
  | allocText pStr src => StrHeap.strAllocText (.var pStr) src
  | allocAltTerm pStr src term _ => StrHeap.strAllocAltTerm (.var pStr) src term
  | allocUlong pStr theLong => StrHeap.strAllocUlong (.var pStr) theLong
  | allocFilesizeT pStr theFilesize => StrHeap.strAllocFilesizeT (.var pStr) theFilesize
  | copy dest src _ => StrHeap.strCopy (.var dest) (.var src)
  | free pStr => StrHeap.strFree (.var pStr)
  | empty pStr => StrHeap.strEmpty (.var pStr)
  | getbuf pStr => StrHeap.strGetbuf (.var pStr)
  | fill _ how => how.exec
  | reserve pStr resLen how => do
    StrHeap.strReserve (.var pStr) resLen.toNat
    how.exec
  | upper pStr => StrHeap.strUpper (.var pStr)
  | rpad pStr minWidth => StrHeap.strRpad (.var pStr) minWidth.toNat
  | lpad pStr minWidth => StrHeap.strLpad (.var pStr) minWidth.toNat
  | replaceChar pStr cFrom cTo => StrHeap.strReplaceChar (.var pStr) cFrom cTo
  | replaceUnprintable pStr newChar => StrHeap.strReplaceUnprintable (.var pStr) newChar
  | replaceText pStr pFrom pTo => StrHeap.strReplaceText (.var pStr) pFrom pTo
  | splitText src rhs _ p => StrHeap.strSplitText (.var src) (.var rhs) p
  | splitTextReverse src rhs _ p => StrHeap.strSplitTextReverse (.var src) (.var rhs) p
  | splitChar src rhs _ c => StrHeap.strSplitChar (.var src) (.var rhs) c
  | splitCharReverse src rhs _ c => StrHeap.strSplitCharReverse (.var src) (.var rhs) c
  | left pStr out _ chars => StrHeap.strLeft (.var pStr) (.var out) chars.toNat
  | right pStr out _ chars => StrHeap.strRight (.var pStr) (.var out) chars.toNat
  | midToEnd pStr out _ indexx => StrHeap.strMidToEnd (.var pStr) (.var out) indexx.toNat
  | getline pStr pLineStr _ pos => do
    let _ ← StrHeap.strGetline (.var pStr) (.var pLineStr) pos.toNat

/-- One operation after the other. -/
def execAll : List (StrOp ι) → StrM ι Unit
  | [] => return ()
  | op :: ops => do
    op.exec
    execAll ops

end CosFtp
