/-
The circular byte buffer (kernel/common/los_cir_buf.c).

# What the model keeps

A `CirBuf` keeps its two indices, its size, the count of free bytes
`remain`, and the bytes of its `fifo`, cell `i` at `fifo + i`. The
caller's buffer is the memory `m` seen from the address `buf`, so that
`buf + cpSize` in the code is address arithmetic here too. Every copy
goes through `memcpy_s` (securec), modelled by the two checks on its
lengths that a call here can meet: a `destMax` of 0, and a `count`
above `destMax`, which also clears the destination.

A write takes the linear path when `startIdx > endIdx` (the free bytes
are one run) and the loop path otherwise, which fills up to the end of
the fifo, wraps `endIdx` to 0 and goes on linearly. A read does the
same with the roles of the indices swapped.

# What it leaves out

The spin lock (callers hold it around each call); `status`, which no
function here reads, and `LOS_CirBufDeinit`, which only clears the
record; `NULL` pointer arguments; and the limit `SECUREC_MEM_MAX_LEN`
of `memcpy_s`, since a fifo lies in the kernel's part of the 32-bit
address space and so no `destMax` here reaches 2 GiB. Sizes and
indices stay inside the fifo, so `UINT32` arithmetic never wraps.
-/
import LiteOsA.Base
import LiteOsA.Lib.Ring
import LiteOsA.Lib.Run

namespace LiteOsA.CirBuf

-- ============================================================ memcpy_s

/-- `EOK` (securec). -/
def EOK : Nat := 0

/-- `ERANGE` (errno.h). -/
def ERANGE : Nat := 34

/-- `ERANGE_AND_RESET` (securec): `ERANGE` with the destination cleared. -/
def ERANGE_AND_RESET : Nat := 162

/-- `memcpy_s(dest, destMax, src, count)` with `dest` in the memory `d`
and `src` in `sm`: the return code and the destination memory after. -/
def memcpy_s (d : Nat → UInt8) (dest destMax : Nat) (sm : Nat → UInt8) (src count : Nat) :
    Nat × (Nat → UInt8) :=
  if destMax = 0 then (ERANGE, d)
  else if destMax < count then (ERANGE_AND_RESET, copyBlock d dest (fun _ => 0) 0 destMax)
  else (EOK, copyBlock d dest sm src count)

/-- A copy within `destMax` succeeds. -/
theorem memcpy_s_ok {d sm : Nat → UInt8} {dest destMax src count : Nat} (hpos : 0 < destMax)
    (hle : count ≤ destMax) :
    memcpy_s d dest destMax sm src count = (EOK, copyBlock d dest sm src count) := by
  simp only [memcpy_s, Nat.pos_iff_ne_zero.1 hpos, Nat.not_lt.2 hle, if_false]

-- ============================================================ the record

/-- `CirBuf` (los_cir_buf_pri.h). -/
structure CirBuf where
  startIdx : Nat
  endIdx : Nat
  size : Nat
  remain : Nat
  fifo : Nat → UInt8

/-- `LOS_CirBufUsedSize`. -/
def LOS_CirBufUsedSize (cb : CirBuf) : Nat := cb.size - cb.remain

/-- `LOS_CirBufInit`: the record cleared, then the fifo and its size. -/
def LOS_CirBufInit (fifo : Nat → UInt8) (size : Nat) : Nat × CirBuf :=
  (LOS_OK, ⟨0, 0, size, size, fifo⟩)

-- ============================================================ writes

/-- `OsCirBufWriteLinear`: copy into the free run from `endIdx`. -/
def OsCirBufWriteLinear (cb : CirBuf) (m : Nat → UInt8) (buf size : Nat) : Nat × CirBuf :=
  let cpSize := if cb.remain < size then cb.remain else size
  if cpSize = 0 then (0, cb)
  else
    let (err, fifo) := memcpy_s cb.fifo cb.endIdx cb.remain m buf cpSize
    if err ≠ EOK then (0, { cb with fifo })
    else (cpSize, { cb with fifo, remain := cb.remain - cpSize, endIdx := cb.endIdx + cpSize })

/-- `OsCirBufWriteLoop`: copy up to the end of the fifo, wrap `endIdx`,
and write the rest linearly. -/
def OsCirBufWriteLoop (cb : CirBuf) (m : Nat → UInt8) (buf size : Nat) : Nat × CirBuf :=
  let right := cb.size - cb.endIdx
  let cpSize := if right < size then right else size
  let (err, fifo) := memcpy_s cb.fifo cb.endIdx right m buf cpSize
  if err ≠ EOK then (0, { cb with fifo })
  else
    let cb := { cb with fifo, remain := cb.remain - cpSize, endIdx := cb.endIdx + cpSize }
    let cb := if cb.endIdx = cb.size then { cb with endIdx := 0 } else cb
    if cpSize = size then (size, cb)
    else
      let r := OsCirBufWriteLinear cb m (buf + cpSize) (size - cpSize)
      (cpSize + r.1, r.2)

/-- `LOS_CirBufWrite`: the bytes `buf`, ..., `buf + size - 1` of `m`. -/
def LOS_CirBufWrite (cb : CirBuf) (m : Nat → UInt8) (buf size : Nat) : Nat × CirBuf :=
  if size = 0 then (0, cb)
  else if cb.remain = 0 then (0, cb)
  else if cb.startIdx ≤ cb.endIdx then OsCirBufWriteLoop cb m buf size
  else OsCirBufWriteLinear cb m buf size

-- ============================================================ reads

/-- `OsCirBufReadLinear`: copy out of the used run from `startIdx`; the
count, the record and the caller's memory after. -/
def OsCirBufReadLinear (cb : CirBuf) (m : Nat → UInt8) (buf size : Nat) :
    Nat × CirBuf × (Nat → UInt8) :=
  let remain := cb.endIdx - cb.startIdx
  let cpSize := if remain < size then remain else size
  if cpSize = 0 then (0, cb, m)
  else
    let (err, m) := memcpy_s m buf size cb.fifo cb.startIdx cpSize
    if err ≠ EOK then (0, cb, m)
    else (cpSize, { cb with remain := cb.remain + cpSize, startIdx := cb.startIdx + cpSize }, m)

/-- `OsCirBufReadLoop`: copy out up to the end of the fifo, wrap
`startIdx`, and read the rest linearly. -/
def OsCirBufReadLoop (cb : CirBuf) (m : Nat → UInt8) (buf size : Nat) :
    Nat × CirBuf × (Nat → UInt8) :=
  let right := cb.size - cb.startIdx
  let cpSize := if right < size then right else size
  let (err, m) := memcpy_s m buf size cb.fifo cb.startIdx cpSize
  if err ≠ EOK then (0, cb, m)
  else
    let cb := { cb with remain := cb.remain + cpSize, startIdx := cb.startIdx + cpSize }
    let cb := if cb.startIdx = cb.size then { cb with startIdx := 0 } else cb
    if cpSize < size then
      let r := OsCirBufReadLinear cb m (buf + cpSize) (size - cpSize)
      (cpSize + r.1, r.2.1, r.2.2)
    else (cpSize, cb, m)

/-- `LOS_CirBufRead`: into the bytes `buf`, ..., `buf + size - 1` of `m`. -/
def LOS_CirBufRead (cb : CirBuf) (m : Nat → UInt8) (buf size : Nat) :
    Nat × CirBuf × (Nat → UInt8) :=
  if size = 0 then (0, cb, m)
  else if cb.remain = cb.size then (0, cb, m)
  else if cb.startIdx ≥ cb.endIdx then OsCirBufReadLoop cb m buf size
  else OsCirBufReadLinear cb m buf size

-- ============================================================ runs

/-- The `size` bytes of `m` from `buf`. -/
def bytesAt (m : Nat → UInt8) (buf size : Nat) : List UInt8 :=
  (List.range size).map fun j => m (buf + j)

/-- What a call shows its caller: the bytes it passed to a write and
the count returned, or the length it passed to a read, the count
returned and the bytes read. -/
inductive Event where
  | write (bytes : List UInt8) (ret : Nat)
  | read (size ret : Nat) (out : List UInt8)

/-- One call, from any caller memory and address. -/
inductive Step : CirBuf → Event → CirBuf → Prop where
  | write {cb : CirBuf} (m : Nat → UInt8) (buf size : Nat) :
      Step cb (.write (bytesAt m buf size) (LOS_CirBufWrite cb m buf size).1)
        (LOS_CirBufWrite cb m buf size).2
  | read {cb : CirBuf} (m : Nat → UInt8) (buf size : Nat) :
      Step cb (.read size (LOS_CirBufRead cb m buf size).1
          (bytesAt (LOS_CirBufRead cb m buf size).2.2 buf (LOS_CirBufRead cb m buf size).1))
        (LOS_CirBufRead cb m buf size).2.1

/-- A write step at the bytes passed and the count returned, stated apart
so that a run on a fixed input names them. -/
theorem Step.write_ret {cb : CirBuf} {m : Nat → UInt8} {buf size ret : Nat} {bytes : List UInt8}
    (hbytes : bytesAt m buf size = bytes) (hret : (LOS_CirBufWrite cb m buf size).1 = ret) :
    Step cb (.write bytes ret) (LOS_CirBufWrite cb m buf size).2 :=
  hbytes ▸ hret ▸ Step.write m buf size

/-- A read step at the count returned and the bytes read. -/
theorem Step.read_ret {cb : CirBuf} {m : Nat → UInt8} {buf size ret : Nat} {out : List UInt8}
    (hret : (LOS_CirBufRead cb m buf size).1 = ret)
    (hout : bytesAt (LOS_CirBufRead cb m buf size).2.2 buf ret = out) :
    Step cb (.read size ret out) (LOS_CirBufRead cb m buf size).2.1 :=
  hout ▸ hret ▸ Step.read m buf size

end LiteOsA.CirBuf
