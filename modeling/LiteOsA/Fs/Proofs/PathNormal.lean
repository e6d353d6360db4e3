/-
What `vfs_normalize_path` makes of a name, against lexical POSIX
normalisation.

The reference (`lexicalNormalize`) splits the full path on `'/'`, drops
the empty components and `.`, lets each `..` remove the component kept
before it, and joins what is left under the root. The code agrees on
the shape of what it returns: an absolute path (`vfs_normalize_path_rooted`)
whenever the directory is. It does not agree on names with dots in them.
`str_normalize_path` looks at what follows every `'.'`, not only a `'.'`
that begins a component: a name ending in `.` loses the dot and the
`'/'` after it, merging with the next name (`loop_dot_slash`), and a
name ending in `..` removes itself (`loop_dot_dot_name`).
`vfs_normalize_path_dot_name` and `lexicalNormalize_dot_name` give the
two results for every such absolute name, and
`normalize_path_merges_dot_name` at `/a./b`.

On the way: the `NAME_MAX` scan of `vfs_normalize_path_parame_check`
never fails, since a name it lets through is shorter than `PATH_MAX`
(`vfs_normalize_path_parame_check_eq`).
-/
import LiteOsA.Fs.FullPath
import Mathlib.Data.List.TakeWhile

namespace LiteOsA.Fs

open str_normalize_path (loop rewind)

-- ============================================================ the reference

/-- The components of a path: split on `'/'`, without the empty ones and
`.`. -/
def components (path : List Char) : List (List Char) :=
  (path.splitOn '/').filter fun c => c ≠ [] ∧ c ≠ ['.']

/-- The components left once each `..` has removed the one kept before
it, or nothing at the root; `kept` holds them last first. -/
def resolve (kept : List (List Char)) : List (List Char) → List (List Char)
  | [] => kept.reverse
  | c :: cs => if c = ['.', '.'] then resolve kept.tail cs else resolve (c :: kept) cs

/-- `"/" c₁ "/" c₂ …`, and `"/"` for no component. -/
def joinPath (cs : List (List Char)) : List Char := '/' :: ['/'].intercalate cs

/-- Lexical POSIX normalisation of `filename` in `directory`. -/
def lexicalNormalize (directory filename : List Char) : List Char :=
  joinPath (resolve [] (components
    (if filename.head? = some '/' then filename else directory ++ '/' :: filename)))

example : lexicalNormalize "/x/y".toList "../a./.../b/./c/..".toList = "/x/a./.../b".toList := by
  decide

-- ============================================================ the parameter check

/-- The scan over the last name finds nothing too long when the whole
name is at most `NAME_MAX`. -/
theorem vfs_normalize_path_parame_check.scan_eq_false {filename : List Char} {namelen : Nat}
    (h : namelen ≤ NAME_MAX) : ∀ k, vfs_normalize_path_parame_check.scan filename namelen k = false
  | 0 => rfl
  | k + 1 => by
    have hk : ¬ namelen - (k + 1) > NAME_MAX := by omega
    rw [vfs_normalize_path_parame_check.scan, if_neg hk, scan_eq_false h k, ite_self]

/-- The check accepts exactly the names of `1` to `PATH_MAX - 1`
characters: by then no name is longer than `NAME_MAX`, and the scan is
dead code. -/
theorem vfs_normalize_path_parame_check_eq (filename : List Char) :
    vfs_normalize_path_parame_check filename =
      if filename = [] then .error (-(EINVAL : Int))
      else if filename.length ≥ PATH_MAX then .error (-(ENAMETOOLONG : Int))
      else .ok filename.length := by
  unfold vfs_normalize_path_parame_check vfs_strnlen
  dsimp only
  by_cases hnil : filename = []
  · subst hnil
    rfl
  have hpos : filename.length ≠ 0 := by simpa using hnil
  by_cases hlen : filename.length ≥ PATH_MAX
  · have hmin : min filename.length PATH_MAX = PATH_MAX := Nat.min_eq_right hlen
    rw [hmin, if_neg (by decide), if_pos le_rfl, if_neg hnil, if_pos hlen]
  · have hmin : min filename.length PATH_MAX = filename.length := Nat.min_eq_left (by omega)
    have hname : filename.length ≤ NAME_MAX := by
      unfold PATH_MAX at hlen
      unfold NAME_MAX
      omega
    rw [hmin, if_neg hpos, if_neg hlen, vfs_normalize_path_parame_check.scan_eq_false hname,
      if_neg Bool.false_ne_true, if_neg hnil, if_neg hlen]

-- ============================================================ absolute paths

/-- A path that begins at the root. -/
def Rooted (path : List Char) : Prop := path.head? = some '/'

theorem Rooted.cons_iff {path : List Char} : Rooted path ↔ ∃ r, path = '/' :: r := by
  cases path with
  | nil => simp [Rooted]
  | cons c r => simp [Rooted]

theorem Rooted.ne_nil {l : List Char} (hr : Rooted l) : l ≠ [] := by
  rintro rfl
  cases hr

theorem Rooted.append {l : List Char} (hr : Rooted l) (m : List Char) : Rooted (l ++ m) := by
  unfold Rooted at *
  simp [List.head?_append, hr]

theorem Rooted.prefix {l m : List Char} (hr : Rooted m) (hp : l <+: m) (hl : l ≠ []) : Rooted l := by
  unfold Rooted at *
  rw [List.prefix_iff_eq_take.mp hp, List.head?_take, if_neg (by simpa using hl), hr]

theorem Rooted.dropLast {l : List Char} (hr : Rooted l) (hl : l.length ≠ 1) : Rooted l.dropLast := by
  have : 1 < l.length := by
    have := List.length_pos_iff.mpr hr.ne_nil
    omega
  unfold Rooted at *
  rw [List.head?_dropLast, if_pos this, hr]

/-- `rewind` only moves `dest` back. -/
theorem rewind_prefix (dest : List Char) : rewind dest <+: dest := by
  unfold rewind
  dsimp only
  generalize hd : (if dest.length ≠ 1 then dest.dropLast else dest) = d
  have hdp : d <+: dest := by
    rw [← hd]
    split
    · exact List.dropLast_prefix dest
    · exact List.prefix_refl dest
  have : (d.reverse.dropWhile (· ≠ '/')).reverse <+: d :=
    List.reverse_suffix.mp (by rw [List.reverse_reverse]; exact List.dropWhile_suffix _)
  exact this.trans hdp

/-- `rewind` never moves back over the root. -/
theorem Rooted.rewind {dest : List Char} (hr : Rooted dest) : Rooted (rewind dest) := by
  unfold str_normalize_path.rewind
  dsimp only
  generalize hd : (if dest.length ≠ 1 then dest.dropLast else dest) = d
  have hdr : Rooted d := by
    rw [← hd]
    split
    · exact hr.dropLast ‹_›
    · exact hr
  -- the walk back stops at the root's `'/'` at the latest
  have hslash : '/' ∈ d.reverse := List.mem_reverse.mpr (List.mem_of_mem_head? hdr)
  refine hdr.prefix (List.reverse_suffix.mp (by rw [List.reverse_reverse]; exact List.dropWhile_suffix _)) ?_
  intro h
  have := List.dropWhile_eq_nil_iff.mp (List.reverse_eq_nil_iff.mp h) '/' hslash
  simp at this

/-- The loop of `str_normalize_path` keeps `dest` at the root: it only
appends to it and rewinds it. -/
theorem Rooted.loop {copying : Bool} {dest : List Char} (src : List Char) (hr : Rooted dest) :
    Rooted (loop copying dest src) := by
  fun_induction str_normalize_path.loop copying dest src with
  | case1 => exact hr
  | case2 _ _ ih => exact ih (hr.append _)
  | case3 _ _ _ _ ih => exact ih (hr.append _)
  | case4 _ _ ih => exact ih hr
  | case5 => exact hr.rewind
  | case6 _ _ ih => exact ih hr.rewind
  | case7 _ _ _ _ ih => exact ih (hr.append _)
  | case8 _ _ _ _ _ _ _ ih => exact ih (hr.append _)

theorem Rooted.dropLastSlash {dest : List Char} (hr : Rooted dest) :
    Rooted (if dest.length ≠ 1 ∧ dest.getLast? = some '/' then dest.dropLast else dest) := by
  split
  · exact hr.dropLast ‹_ ∧ _›.1
  · exact hr

theorem Rooted.str_remove_path_end_slash {dest : List Char} (hr : Rooted dest) :
    Rooted (str_remove_path_end_slash dest) := by
  have hd : Rooted (if dest.getLast? = some '.' ∧ dest.dropLast.getLast? = some '/' then dest.dropLast
      else dest) := by
    split
    · -- a final `.` after a `'/'`: `dest` has two characters at least
      rename_i h
      refine hr.dropLast fun hlen => ?_
      have : dest.dropLast = [] := List.length_eq_zero_iff.mp (by simp [hlen])
      simp [this] at h
    · exact hr
  exact hd.dropLastSlash

theorem Rooted.str_path {path : List Char} (hr : Rooted path) : Rooted (str_path path) := by
  obtain ⟨r, rfl⟩ := Rooted.cons_iff.mp hr
  simp [LiteOsA.Fs.str_path, str_path.loop, Rooted]

/-- The loop of `str_normalize_path` copies a character that is not a
`'.'`. -/
theorem loop_cons_of_ne {c : Char} (hc : c ≠ '.') (dest src : List Char) :
    loop false dest (c :: src) = loop false (dest ++ [c]) src :=
  str_normalize_path.loop.eq_7 _ _ _ (fun _ h => absurd h hc) (fun h => absurd h hc)
    (fun _ h => absurd h hc) (fun _ _ h => absurd h hc)

theorem Rooted.str_normalize_path {path : List Char} (hr : Rooted path) :
    Rooted (str_normalize_path path) := by
  obtain ⟨r, rfl⟩ := Rooted.cons_iff.mp hr
  have h₁ : Rooted ['/'] := rfl
  unfold LiteOsA.Fs.str_normalize_path
  rw [loop_cons_of_ne (by decide), List.nil_append]
  exact (h₁.loop r).str_remove_path_end_slash

theorem Rooted.vfs_normalize_fullpath {directory filename fullpath : List Char} {namelen : Nat}
    (hdir : directory = [] ∨ Rooted directory)
    (h : vfs_normalize_fullpath directory filename namelen = .ok fullpath) : Rooted fullpath := by
  unfold LiteOsA.Fs.vfs_normalize_fullpath at h
  by_cases hrel : filename.head? ≠ some '/'
  · -- joined to the directory
    rw [if_pos hrel] at h
    cases h
    rcases hdir with rfl | hdir
    · rfl
    · exact hdir.append _
  · -- absolute: `filename` itself
    rw [if_neg hrel] at h
    split at h
    · cases h
    · cases h
      exact not_not.mp hrel

/-- Whatever the name, a path `vfs_normalize_path` returns begins at
the root when the directory does (or is empty). -/
theorem vfs_normalize_path_rooted {directory filename path : List Char}
    (hdir : directory = [] ∨ Rooted directory) (h : vfs_normalize_path directory filename = .ok path) :
    Rooted path := by
  unfold vfs_normalize_path at h
  split at h
  · cases h
  · split at h
    · cases h
    · split at h
      · cases h
      · rename_i fullpath hfull
        dsimp only at h
        split at h
        · cases h
        · cases h
          exact (Rooted.vfs_normalize_fullpath hdir hfull).str_path.str_normalize_path

-- ============================================================ copying

theorem str_path.loop_cons_of_ne {c : Char} (hc : c ≠ '/') (slash : Bool) (src : List Char) :
    str_path.loop slash (c :: src) = c :: str_path.loop false src := by
  rw [str_path.loop, if_neg hc]

/-- `str_path` copies a run without `'/'`. -/
theorem str_path.loop_append {a : List Char} (ha : '/' ∉ a) (rest : List Char) :
    str_path.loop false (a ++ rest) = a ++ str_path.loop false rest := by
  induction a with
  | nil => rfl
  | cons c a ih =>
    rw [List.cons_append, str_path.loop_cons_of_ne (fun h => ha (h ▸ List.mem_cons_self ..)),
      ih (fun h => ha (List.mem_cons_of_mem c h)), List.cons_append]

/-- `str_normalize_path` copies a run without `'.'`. -/
theorem loop_copy (rest : List Char) : ∀ (a dest : List Char), '.' ∉ a →
    loop false dest (a ++ rest) = loop false (dest ++ a) rest
  | [], dest, _ => by simp
  | c :: a, dest, h => by
    have hc : c ≠ '.' := fun e => h (e ▸ List.mem_cons_self ..)
    rw [List.cons_append, loop_cons_of_ne hc,
      loop_copy rest a (dest ++ [c]) (fun h' => h (List.mem_cons_of_mem c h')),
      List.append_assoc, List.singleton_append]

/-- `str_normalize_path` leaves a path as it is at its end when the last
character is neither `'.'` nor `'/'`. -/
theorem str_remove_path_end_slash_of_getLast {dest : List Char}
    (h : ∀ c ∈ dest.getLast?, c ≠ '.' ∧ c ≠ '/') : str_remove_path_end_slash dest = dest := by
  have hdot : ¬ (dest.getLast? = some '.' ∧ dest.dropLast.getLast? = some '/') :=
    fun hd => (h _ hd.1).1 rfl
  have hslash : ¬ (dest.length ≠ 1 ∧ dest.getLast? = some '/') := fun hs => (h _ hs.2).2 rfl
  unfold LiteOsA.Fs.str_remove_path_end_slash
  rw [if_neg hdot, if_neg hslash]

-- ============================================================ names with dots

/-- A `./` anywhere is dropped, also at the end of a name: the name
before it loses its final `.` and runs into the next one. -/
theorem loop_dot_slash (a dest rest : List Char) (ha : '.' ∉ a) :
    loop false dest (a ++ '.' :: '/' :: rest) = loop false (dest ++ a) rest := by
  rw [loop_copy _ a dest ha, str_normalize_path.loop]

/-- The rewind after a name: back to its `'/'`. -/
theorem rewind_name {d a : List Char} (ha : a ≠ []) (hs : '/' ∉ a) : rewind (d ++ '/' :: a) = d ++ ['/'] := by
  have hlen : (d ++ '/' :: a).length ≠ 1 := by
    have := List.length_pos_iff.mpr ha
    simp
    omega
  have hdrop : (d ++ '/' :: a).dropLast = d ++ '/' :: a.dropLast := by
    rw [List.dropLast_append_of_ne_nil (List.cons_ne_nil _ _), List.dropLast_cons_of_ne_nil ha]
  -- the walk back passes the rest of the name and stops at its `'/'`
  have hwalk : (a.dropLast.reverse ++ '/' :: d.reverse).dropWhile (· ≠ '/') = '/' :: d.reverse := by
    have hall : a.dropLast.reverse.dropWhile (· ≠ '/') = [] := List.dropWhile_eq_nil_iff.mpr fun x hx => by
      have : x ∈ a := List.dropLast_subset a (List.mem_reverse.mp hx)
      have hx' : x ≠ '/' := fun h => hs (h ▸ this)
      simpa using hx'
    rw [List.dropWhile_append, hall]
    simp
  unfold rewind
  rw [if_pos hlen, hdrop]
  simp only [List.reverse_append, List.reverse_cons, List.append_assoc, List.singleton_append]
  rw [hwalk, List.reverse_cons, List.reverse_reverse]

/-- A name ending in `..` is taken for `..`, and removes itself. -/
theorem loop_dot_dot_name {d a : List Char} (ha : a ≠ []) (hda : '.' ∉ a) (hsa : '/' ∉ a) (rest : List Char) :
    loop false (d ++ ['/']) (a ++ '.' :: '.' :: '/' :: rest) = loop false (d ++ ['/']) rest := by
  rw [loop_copy _ _ _ hda, str_normalize_path.loop, List.append_assoc, List.singleton_append,
    rewind_name ha hsa]

example : vfs_normalize_path ['/'] ['/', 'x', '/', 'a', '.', '.', '/', 'b'] = .ok ['/', 'x', '/', 'b'] := by
  decide

/-- `str_path` leaves a name with one `'/'` between components as it is. -/
theorem str_path_dot_name {a b : List Char} (ha : a ≠ []) (hsa : '/' ∉ a) (hsb : '/' ∉ b) :
    str_path ('/' :: a ++ '.' :: '/' :: b) = '/' :: a ++ '.' :: '/' :: b := by
  obtain ⟨c, a', rfl⟩ := List.exists_cons_of_ne_nil ha
  have hc : c ≠ '/' := fun h => hsa (h ▸ List.mem_cons_self ..)
  have hsa' : '/' ∉ a' := fun h => hsa (List.mem_cons_of_mem c h)
  have hb : str_path.loop true b = b := by
    cases b with
    | nil => rfl
    | cons d b' =>
      rw [str_path.loop_cons_of_ne (fun h => hsb (h ▸ List.mem_cons_self ..)), ← List.append_nil b',
        str_path.loop_append (fun h => hsb (List.mem_cons_of_mem d h))]
      rfl
  unfold str_path
  rw [List.cons_append, str_path.loop, if_pos rfl, if_neg Bool.false_ne_true, List.cons_append,
    str_path.loop_cons_of_ne hc, str_path.loop_append hsa', str_path.loop_cons_of_ne (by decide),
    str_path.loop, if_pos rfl, if_neg Bool.false_ne_true, hb]

/-- An absolute name `/a./b`, with `a` and `b` names without dots, comes
back as `/ab`, in any directory. -/
theorem vfs_normalize_path_dot_name {a b : List Char} (directory : List Char) (ha : a ≠ []) (hb : b ≠ [])
    (hda : '.' ∉ a) (hdb : '.' ∉ b) (hsa : '/' ∉ a) (hsb : '/' ∉ b)
    (hlen : a.length + b.length + 4 < PATH_MAX) :
    vfs_normalize_path directory ('/' :: a ++ '.' :: '/' :: b) = .ok ('/' :: a ++ b) := by
  have hcheck : vfs_normalize_path_parame_check ('/' :: a ++ '.' :: '/' :: b) =
      .ok ('/' :: a ++ '.' :: '/' :: b).length := by
    rw [vfs_normalize_path_parame_check_eq, if_neg (by simp), if_neg (by simp; omega)]
  -- an absolute name that does not begin with `//` is taken as it is
  have hfull : ∀ n, vfs_normalize_fullpath directory ('/' :: a ++ '.' :: '/' :: b) n =
      .ok ('/' :: a ++ '.' :: '/' :: b) := by
    obtain ⟨c, a', rfl⟩ := List.exists_cons_of_ne_nil ha
    have hc : c ≠ '/' := fun h => hsa (h ▸ List.mem_cons_self ..)
    intro n
    unfold vfs_normalize_fullpath
    rw [if_neg (by simp), if_neg (by simpa using hc)]
  -- the normalisation copies `'/' :: a`, drops `./`, and copies `b`
  have hnorm : str_normalize_path ('/' :: a ++ '.' :: '/' :: b) = '/' :: a ++ b := by
    have hda' : '.' ∉ '/' :: a := by simpa using hda
    unfold str_normalize_path
    rw [loop_dot_slash _ _ _ hda', ← List.append_nil b, loop_copy _ _ _ hdb, str_normalize_path.loop,
      List.nil_append, List.append_nil]
    refine str_remove_path_end_slash_of_getLast fun x hx => ?_
    rw [List.getLast?_append, List.getLast?_eq_some_getLast hb, Option.some_or, Option.mem_some_iff] at hx
    have := hx ▸ List.getLast_mem hb
    exact ⟨fun h => hdb (h ▸ this), fun h => hsb (h ▸ this)⟩
  unfold vfs_normalize_path
  rw [hcheck]
  dsimp only
  rw [if_neg (by simp), hfull]
  dsimp only
  rw [str_path_dot_name ha hsa hsb, hnorm, if_neg (by simp; omega)]

/-- The reference keeps `/a./b` as it is: `a.` is a name like any other. -/
theorem lexicalNormalize_dot_name {a b : List Char} (directory : List Char) (ha : a ≠ []) (hb : b ≠ [])
    (hda : '.' ∉ a) (hdb : '.' ∉ b) (hsa : '/' ∉ a) (hsb : '/' ∉ b) :
    lexicalNormalize directory ('/' :: a ++ '.' :: '/' :: b) = '/' :: a ++ '.' :: '/' :: b := by
  have hsplit : ('/' :: a ++ '.' :: '/' :: b).splitOn '/' = [[], a ++ ['.'], b] := by
    rw [show '/' :: a ++ '.' :: '/' :: b = [] ++ '/' :: ((a ++ ['.']) ++ '/' :: b) by simp,
      List.splitOn_append_cons_self_of_not_mem List.not_mem_nil,
      List.splitOn_append_cons_self_of_not_mem (by simpa using hsa), List.splitOn_eq_singleton hsb]
  -- `a.` and `b` are names: kept, and neither is `..`
  have hka : a ++ ['.'] ≠ ['.'] := by simpa using ha
  have hkb : b ≠ ['.'] := fun h => hdb (h ▸ List.mem_singleton_self _)
  have hna : a ++ ['.'] ≠ ['.', '.'] := fun h => hda (by
    rw [show a = ['.'] from List.append_inj_left' h rfl]
    exact List.mem_singleton_self _)
  have hnb : b ≠ ['.', '.'] := fun h => hdb (h ▸ List.mem_cons_self ..)
  unfold lexicalNormalize
  rw [if_pos (by simp), components, hsplit]
  simp [hb, hka, hkb, resolve, hna, hnb, joinPath]

/-- `/a./b` in `/`: a name the check accepts, normalised to `/ab`
where lexical normalisation keeps `/a./b`. -/
theorem normalize_path_merges_dot_name :
    vfs_normalize_path_parame_check ['/', 'a', '.', '/', 'b'] = .ok 5 ∧
      vfs_normalize_path ['/'] ['/', 'a', '.', '/', 'b'] = .ok ['/', 'a', 'b'] ∧
      lexicalNormalize ['/'] ['/', 'a', '.', '/', 'b'] = ['/', 'a', '.', '/', 'b'] :=
  ⟨by decide,
    @vfs_normalize_path_dot_name ['a'] ['b'] ['/'] (by decide) (by decide) (by decide) (by decide)
      (by decide) (by decide) (by decide),
    @lexicalNormalize_dot_name ['a'] ['b'] ['/'] (by decide) (by decide) (by decide) (by decide)
      (by decide) (by decide)⟩

end LiteOsA.Fs
