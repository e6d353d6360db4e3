/-
Path normalisation of the VFS (fs/vfs/operation/fullpath.c).

# Strings

A C string is its list of characters, without the terminating `'\0'`;
a cursor is the rest of the list from it. `str_path` and
`str_normalize_path` rewrite the buffer in place with two cursors,
`dest` never ahead of `src`, so what `src` still has to read is never
overwritten: the model reads from the rest of the input and builds the
output separately. `str_normalize_path` looks ahead at `src + 1` and
`src + 2`, so its loop takes those characters as patterns; the inner
loop that copies a name beginning with `..` up to the next `'/'` is the
flag `copying` of `str_normalize_path.loop`.

# What is left out

`directory == NULL` (the working directory of the process, or
`-EINVAL`), the failures of `malloc` and `strdup`, and the shell's
longer `TEMP_PATH_MAX`: the model is the configuration without
`LOSCFG_SHELL`. `PATH_MAX` and `NAME_MAX` come from the C library's
`limits.h`, which is not part of the source; the model takes `256`, the
value `apps/shell/include/shell.h` gives `PATH_MAX`, and `255`.
-/
import LiteOsA.Base

namespace LiteOsA.Fs

-- ============================================================ constants

/-- `PATH_MAX`. -/
def PATH_MAX : Nat := 256

/-- `NAME_MAX`. -/
def NAME_MAX : Nat := 255

/-- `TEMP_PATH_MAX` without `LOSCFG_SHELL`. -/
def TEMP_PATH_MAX : Nat := PATH_MAX

/-- `ENOERR`. -/
def ENOERR : Int := 0

/-- `EINVAL` (errno.h). -/
def EINVAL : Nat := 22

/-- `ENAMETOOLONG` (errno.h). -/
def ENAMETOOLONG : Nat := 36

-- ============================================================ the passes

/-- `vfs_strnlen`: the length of the string, at most `maxlen`. -/
def vfs_strnlen (str : List Char) (maxlen : Nat) : Nat := min str.length maxlen

/-- The loop of `str_path`; `slash` is set while `src` is inside a run
of `'/'` whose first one was copied. -/
def str_path.loop : Bool → List Char → List Char
  | _, [] => []
  | slash, c :: src =>
    if c = '/' then (if slash then loop true src else '/' :: loop true src)
    else c :: loop false src

/-- `str_path`: keep one `'/'` of every run. -/
def str_path (path : List Char) : List Char := str_path.loop false path

/-- The rewind of `str_normalize_path` after a `..`: step back over one
character unless only the first is left, then back to just after the
previous `'/'`. -/
def str_normalize_path.rewind (dest : List Char) : List Char :=
  let dest := if dest.length ≠ 1 then dest.dropLast else dest
  (dest.reverse.dropWhile (· ≠ '/')).reverse

/-- The loop of `str_normalize_path`, from the characters `dest` has
written and the rest of `src`. With `copying` set, the inner loop copies
a name that begins with `..` up to the next `'/'`. -/
def str_normalize_path.loop : Bool → List Char → List Char → List Char
  | _, dest, [] => dest
  | true, dest, c :: src =>
    if c = '/' then loop false (dest ++ [c]) src else loop true (dest ++ [c]) src
  | false, dest, '.' :: '/' :: src => loop false dest src
  | false, dest, '.' :: '.' :: [] => rewind dest
  | false, dest, '.' :: '.' :: '/' :: src => loop false (rewind dest) src
  | false, dest, '.' :: '.' :: c :: src => loop true (dest ++ ['.']) ('.' :: c :: src)
  | false, dest, c :: src => loop false (dest ++ [c]) src

/-- `str_remove_path_end_slash`, at the end of the output: a final `.`
after a `'/'` goes, then a final `'/'` unless it is the first
character. -/
def str_remove_path_end_slash (dest : List Char) : List Char :=
  let dest := if dest.getLast? = some '.' ∧ dest.dropLast.getLast? = some '/' then dest.dropLast else dest
  if dest.length ≠ 1 ∧ dest.getLast? = some '/' then dest.dropLast else dest

/-- `str_normalize_path`. -/
def str_normalize_path (fullpath : List Char) : List Char :=
  str_remove_path_end_slash (str_normalize_path.loop false [] fullpath)

-- ============================================================ the call

/-- The loop of `vfs_normalize_path_parame_check` over the last name:
`name` goes from the end of `filename` down to just after its last
`'/'` (or to its second character), and no suffix it passes may be
longer than `NAME_MAX`. `true` is an error. -/
def vfs_normalize_path_parame_check.scan (filename : List Char) (namelen : Nat) : Nat → Bool
  | 0 => false
  | k + 1 =>
    if filename[k + 1]? = some '/' then false
    else if namelen - (k + 1) > NAME_MAX then true
    else scan filename namelen k

/-- `vfs_normalize_path_parame_check`: the length of `filename`, or
`-errno`. -/
def vfs_normalize_path_parame_check (filename : List Char) : Except Int Nat :=
  let namelen := vfs_strnlen filename PATH_MAX
  if namelen = 0 then .error (-(EINVAL : Int))
  else if namelen ≥ PATH_MAX then .error (-(ENAMETOOLONG : Int))
  else if vfs_normalize_path_parame_check.scan filename namelen namelen then .error (-(ENAMETOOLONG : Int))
  else .ok namelen

/-- `vfs_normalize_fullpath`: a relative name joined to the directory
(a leading `./` dropped), or an absolute one as it is, refused when it
begins with `//`. -/
def vfs_normalize_fullpath (directory filename : List Char) (namelen : Nat) : Except Int (List Char) :=
  if filename.head? ≠ some '/' then
    let filename := match filename with
      | '.' :: '/' :: rest => if namelen > 1 then rest else filename
      | _ => filename
    .ok (directory ++ '/' :: filename)
  else if filename[1]? = some '/' then .error (-(EINVAL : Int))
  else .ok filename

/-- `vfs_normalize_path`: the normalised full path (`ENOERR`), or
`-errno`. -/
def vfs_normalize_path (directory filename : List Char) : Except Int (List Char) :=
  match vfs_normalize_path_parame_check filename with
  | .error e => .error e
  | .ok namelen =>
    if filename.head? ≠ some '/' ∧ directory.length + namelen + 2 > TEMP_PATH_MAX then
      .error (-(ENAMETOOLONG : Int))
    else
      match vfs_normalize_fullpath directory filename namelen with
      | .error e => .error e
      | .ok fullpath =>
        let fullpath := str_normalize_path (str_path fullpath)
        if fullpath.length ≥ PATH_MAX then .error (-(ENAMETOOLONG : Int)) else .ok fullpath

end LiteOsA.Fs
