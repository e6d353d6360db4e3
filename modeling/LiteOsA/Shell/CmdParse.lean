/-
The shell's command line parsing (shell/full/src/base/shcmd.c,
shcmdparse.c): `OsCmdKeyShift` squeezes the spaces of a line, and
`OsCmdTokenSplit` cuts what it leaves into parameters.

# What the model keeps

A C string is the list of its characters before the NUL. Both functions
take their buffers from the kernel pool `m_aucSysMem0`, the TLSF heap
of `LiteOsA.Mem.Tlsf`, so each takes the pool and gives back the pool
after it; `none` is a panic of the heap. What the code writes into a
buffer it allocated lies past the node's head, so the pool's words do
not see it: a buffer is its address and its characters. A parameter
is the address `OsCmdParseStrdup` returned and the string it copied.

`OsCmdTokenSplit` writes a NUL over each separator it splits at, so the
token it hands to `OsCmdParseOneToken` is read up to there: the loop
carries the characters of the current token. The character pointers
are never `NULL` inside the loop, so the checks of `token` and
`cmdParsed` against `NULL` are left out.

# What it leaves out

The `PRINTK`/`PRINT_ERR` messages, and `cmdParsed`'s fields other than
the type, the count and the parameters.
-/
import LiteOsA.Mem.Tlsf

namespace LiteOsA.Shell

open Tlsf

-- ============================================================ constants

/-- `CMD_KEY_LEN` (shell.h). -/
def CMD_KEY_LEN : Nat := 16

/-- `CMD_MAX_LEN` (shell.h). -/
def CMD_MAX_LEN : Nat := 256 + CMD_KEY_LEN

/-- `SHOW_MAX_LEN` (shell.h). -/
def SHOW_MAX_LEN : Nat := CMD_MAX_LEN

/-- `CMD_MAX_PARAS` (shell.h). -/
def CMD_MAX_PARAS : Nat := 32

/-- The character `"`. -/
def DOUBLE_QUOTE : Char := Char.ofNat 34

/-- The character `'`. -/
def SINGLE_QUOTE : Char := Char.ofNat 39

/-- `CmdType` (shell.h). -/
inductive CmdType where
  | CMD_TYPE_SHOW
  | CMD_TYPE_STD
  | CMD_TYPE_EX
deriving DecidableEq, Repr

/-- `CmdParsed` (shell.h), the fields the parser reads and writes:
`paramArray[i]` is the address and the string of parameter `i`. -/
structure CmdParsed where
  cmdType : CmdType
  paramCnt : Nat
  paramArray : Nat → Nat × List Char

/-- The parameters a `CmdParsed` holds, in order. -/
def CmdParsed.params (cmdParsed : CmdParsed) : List (List Char) :=
  (List.range cmdParsed.paramCnt).map fun i => (cmdParsed.paramArray i).2

-- ============================================================ OsCmdKeyShift

/-- `SWITCH_QUOTES_STATUS` when the character is a double quote. -/
def switchQuotes (c : Char) (quotes : Bool) : Bool := if c = DOUBLE_QUOTE then !quotes else quotes

/-- The scan of `OsCmdKeyShift`: the characters it keeps. A space is
dropped outside quotes when the next character is a space or the end; a
single quote is always dropped. -/
def OsCmdKeyShift.scan : List Char → Bool → List Char
  | [], _ => []
  | c :: rest, quotes =>
    let quotes := switchQuotes c quotes
    if c = ' ' ∧ (rest.head? = some ' ' ∨ rest = []) ∧ quotes = false then scan rest quotes
    else if c = SINGLE_QUOTE then scan rest quotes
    else c :: scan rest quotes

/-- `OsCmdKeyShift(cmdKey, cmdOut, size)` with the kernel pool at `pool`:
the return value, what it writes to `cmdOut` (`none` when it writes
nothing), and the pool after. -/
def OsCmdKeyShift (pool : Nat) (p : Pool) (cmdKey : List Char) (size : Nat) :
    Option (Nat × Option (List Char) × Pool) := do
  let len := cmdKey.length
  if len ≥ size then return (OS_ERROR, none, p)
  let (output, p) ← LOS_MemAlloc p (len + 1)
  if output = NULL then return (OS_ERROR, none, p)
  let buf := OsCmdKeyShift.scan cmdKey false
  -- the space at the first character is cleared by moving `output` on,
  -- and `output` is what is freed
  let (output, skip) := if buf.head? = some ' ' then (output + 1, 1) else (output, 0)
  let len := buf.length - skip
  -- `strncpy_s` fails only when the string and its NUL do not fit
  if len ≥ size then do
    let (_, p) ← LOS_MemFree pool p output
    return (OS_ERROR, none, p)
  let (_, p) ← LOS_MemFree pool p output
  return (LOS_OK, some (buf.drop skip), p)

-- ============================================================ OsCmdTokenSplit

/-- `OsCmdParseStrdup`: a copy of `str` without its quotes, in a buffer
of `strlen(str) + 1` bytes; the address is `NULL` when the allocation
fails. -/
def OsCmdParseStrdup (p : Pool) (str : List Char) : Option (Nat × List Char × Pool) := do
  let (newStr, p) ← LOS_MemAlloc p (str.length + 1)
  if newStr = NULL then return (NULL, [], p)
  return (newStr, str.filter fun c => c ≠ DOUBLE_QUOTE ∧ c ≠ SINGLE_QUOTE, p)

/-- `OsCmdParseOneToken`: parameter `paramCnt` becomes a copy of `token`
while there is room, except that a command not of `CMD_TYPE_STD` takes
no parameter at index 0. -/
def OsCmdParseOneToken (p : Pool) (cmdParsed : CmdParsed) (index : Nat) (token : List Char) :
    Option (Nat × CmdParsed × Pool) := do
  if index = 0 ∧ cmdParsed.cmdType ≠ .CMD_TYPE_STD then return (LOS_OK, cmdParsed, p)
  if cmdParsed.paramCnt < CMD_MAX_PARAS then
    let tempLen := cmdParsed.paramCnt
    let (value, str, p) ← OsCmdParseStrdup p token
    -- `OsCmdParseParaGet` stores the copy, `NULL` included
    let cmdParsed := { cmdParsed with
      paramArray := Function.update cmdParsed.paramArray tempLen (value, str) }
    if value = NULL then return (LOS_NOK, cmdParsed, p)
    return (LOS_OK, { cmdParsed with paramCnt := cmdParsed.paramCnt + 1 }, p)
  return (LOS_OK, cmdParsed, p)

/-- The states of `OsCmdTokenSplit`. -/
inductive SplitState where
  | STAT_INIT
  | STAT_TOKEN_IN
  | STAT_TOKEN_OUT
deriving DecidableEq, Repr

/-- What the loop of `OsCmdTokenSplit` carries: its state, the quote
status, the token count, the current token's characters and `ret`. -/
structure SplitLoop where
  state : SplitState
  quotes : Bool
  count : Nat
  token : List Char
  ret : Nat

/-- The loop of `OsCmdTokenSplit` over the characters left, while `ret`
is `LOS_OK`. -/
def OsCmdTokenSplit.loop (split : Char) :
    List Char → SplitLoop → CmdParsed → Pool → Option (SplitLoop × CmdParsed × Pool)
  | [], st, cmdParsed, p => some (st, cmdParsed, p)
  | c :: rest, st, cmdParsed, p =>
    if st.ret ≠ LOS_OK then some (st, cmdParsed, p)
    else
      let quotes := switchQuotes c st.quotes
      match st.state with
      | .STAT_INIT | .STAT_TOKEN_IN =>
        -- a separator outside quotes ends the token
        if c = split ∧ quotes = false then do
          let (ret, cmdParsed, p) ← OsCmdParseOneToken p cmdParsed st.count st.token
          loop split rest ⟨.STAT_TOKEN_OUT, quotes, st.count + 1, st.token, ret⟩ cmdParsed p
        else loop split rest { st with quotes := quotes, token := st.token ++ [c] } cmdParsed p
      | .STAT_TOKEN_OUT =>
        if c ≠ split then
          loop split rest { st with state := .STAT_TOKEN_IN, quotes := quotes, token := [c] } cmdParsed p
        else loop split rest { st with quotes := quotes } cmdParsed p

/-- `OsCmdTokenSplit(cmdStr, split, cmdParsed)`: the return value, the
parsed command, and the pool after. -/
def OsCmdTokenSplit (p : Pool) (cmdStr : List Char) (split : Char) (cmdParsed : CmdParsed) :
    Option (Nat × CmdParsed × Pool) := do
  let (st, cmdParsed, p) ← OsCmdTokenSplit.loop split cmdStr ⟨.STAT_INIT, false, 0, [], LOS_OK⟩ cmdParsed p
  if (st.ret = LOS_OK ∧ st.state = .STAT_TOKEN_IN) ∨ st.state = .STAT_INIT then
    OsCmdParseOneToken p cmdParsed st.count st.token
  else return (st.ret, cmdParsed, p)

-- ============================================================ the reference

/-- The pieces of `s` between the spaces outside double quotes, empty
ones included; `cur` is the piece read so far. -/
def splitOutsideQuotes : List Char → Bool → List Char → List (List Char)
  | [], _, cur => [cur]
  | c :: rest, quotes, cur =>
    let quotes := switchQuotes c quotes
    if c = ' ' ∧ quotes = false then cur :: splitOutsideQuotes rest quotes []
    else splitOutsideQuotes rest quotes (cur ++ [c])

/-- The tokens a command line stands for: delete every single quote,
split on the spaces outside double quotes, drop the empty pieces, and
delete every double quote from each token. -/
def refTokens (s : List Char) : List (List Char) :=
  ((splitOutsideQuotes (s.filter fun c => c ≠ SINGLE_QUOTE) false []).filter fun t => t ≠ []).map
    fun t => t.filter fun c => c ≠ DOUBLE_QUOTE

end LiteOsA.Shell
