/-
The argument stack of exec decodes to the arguments it was built from
(`OsSetArgParams`, `OsMakeArgsStack`).

`OsGetParamNum` counts only strings whose `LOS_StrnlenUser` is a length
with its NUL, so each counted string is a user string
(`ArgOk.cstr`). `OsCopyParams` copies them below `topOfMem`, the last
first, so that the copies lie packed from the new `topOfMem` in the
order of the array (`OsCopyParams.loop_packed`): the strings of `argv`
first, then those of `envp`, then the file name. Every round keeps the
copies inside the parameter page (`Area`).

`OsPutParamToStack` puts the words below the strings, at a `stackTop`
its check keeps inside the page. `OsPutUserArgv` walks the packed
copies from the lowest, measuring each with `LOS_StrnlenUser`; a copy
measures what was copied, so the walk writes the start of each string
(`OsPutUserArgv_spec`). The words end before the strings start, so no
store touches a string.
-/
import LiteOsA.Dynload.ExecStack
import LiteOsA.Dynload.Proofs.ElfBounds

namespace LiteOsA.Elf

open Vm

-- ============================================================ addresses

theorem USER_ASPACE_BASE_eq : USER_ASPACE_BASE = 0x1000000 := rfl

theorem USER_ASPACE_TOP_MAX_eq : USER_ASPACE_TOP_MAX = 0x3F000000 := rfl

theorem LOS_IsUserAddress_iff {v : Nat} :
    LOS_IsUserAddress v = true ↔ USER_ASPACE_BASE ≤ v ∧ v < USER_ASPACE_TOP_MAX := by
  simp only [LOS_IsUserAddress, USER_ASPACE_TOP_MAX, Bool.and_eq_true, decide_eq_true_eq]
  have : USER_ASPACE_SIZE = 0x3E000000 := rfl
  omega

/-- The user space lies below the kernel's. -/
theorem LOS_IsKernelAddress_of_user {v : Nat} (h : LOS_IsUserAddress v = true) :
    LOS_IsKernelAddress v = false := by
  rw [LOS_IsUserAddress_iff, USER_ASPACE_TOP_MAX_eq] at h
  have hk : ¬ KERNEL_ASPACE_BASE ≤ v := by simp only [KERNEL_ASPACE_BASE]; omega
  simp [LOS_IsKernelAddress, hk]

-- ============================================================ string lengths

/-- `LOS_StrnlenUser` of a user string that ends inside the user space
and inside the bytes it reads is its length with the NUL. -/
theorem LOS_StrnlenUser_of_cstr {mem : Nat → Nat} {p count : Nat} {s : List Nat} (h : CStrAt mem p s)
    (hu : LOS_IsUserAddress p = true) (hlen : s.length < count) (hend : p + s.length < USER_ASPACE_TOP_MAX) :
    LOS_StrnlenUser mem p count = s.length + 1 := by
  have hmax : s.length < (if LOS_IsUserAddressRange p count then count else USER_ASPACE_TOP_MAX - p) := by
    split_ifs <;> omega
  simp only [LOS_StrnlenUser, hu, Bool.not_true, Bool.false_or, beq_iff_eq,
    show count ≠ 0 by omega, if_false, h.firstZero hmax]

/-- A length with its NUL, at most `count`, is that of a user string. -/
theorem LOS_StrnlenUser_cstr {mem : Nat → Nat} {p count : Nat} (h₁ : 1 ≤ LOS_StrnlenUser mem p count)
    (h₂ : LOS_StrnlenUser mem p count ≤ count) :
    LOS_IsUserAddress p = true ∧ CStrAt mem p (bytes mem p (LOS_StrnlenUser mem p count - 1)) := by
  unfold LOS_StrnlenUser at h₁ h₂ ⊢
  by_cases hu : LOS_IsUserAddress p = true
  · by_cases hc : count = 0
    · simp [hc] at h₁
    · simp only [hu, Bool.not_true, Bool.false_or, beq_iff_eq, hc, if_false] at h₁ h₂ ⊢
      split
      · rename_i k hk
        rw [Nat.add_sub_cancel]
        exact ⟨trivial, CStrAt.of_firstZero hk⟩
      · -- no NUL: the length is `count + 1`, above `count`
        rename_i hk
        simp only [hk] at h₂
        omega
  · simp [hu] at h₁

-- ============================================================ counted strings

/-- The `k`th string of the array `argv` is one `OsGetParamNum` counts:
its length with the NUL is at least `1` and at most `PATH_MAX`. -/
def ArgOk (mem : Nat → Nat) (argv k : Nat) : Prop :=
  1 ≤ LOS_StrnlenUser mem (OsGetParamPtr mem argv k) Fs.PATH_MAX ∧
    LOS_StrnlenUser mem (OsGetParamPtr mem argv k) Fs.PATH_MAX ≤ Fs.PATH_MAX

/-- The `k`th string of the array `argv`, without its NUL. -/
def argString (mem : Nat → Nat) (argv k : Nat) : List Nat :=
  bytes mem (OsGetParamPtr mem argv k) (LOS_StrnlenUser mem (OsGetParamPtr mem argv k) Fs.PATH_MAX - 1)

/-- The first `n` strings of the array `argv`. -/
def argStrings (mem : Nat → Nat) (argv n : Nat) : List (List Nat) := (List.range n).map (argString mem argv)

theorem ArgOk.cstr {mem : Nat → Nat} {argv k : Nat} (h : ArgOk mem argv k) :
    LOS_IsUserAddress (OsGetParamPtr mem argv k) = true ∧
      CStrAt mem (OsGetParamPtr mem argv k) (argString mem argv k) :=
  LOS_StrnlenUser_cstr h.1 h.2

theorem ArgOk.length_lt {mem : Nat → Nat} {argv k : Nat} (h : ArgOk mem argv k) :
    (argString mem argv k).length < Fs.PATH_MAX := by
  have := h.1
  have := h.2
  simp only [argString, length_bytes]
  omega

theorem ArgOk.strnlen {mem : Nat → Nat} {argv k : Nat} (h : ArgOk mem argv k) :
    LOS_StrnlenUser mem (OsGetParamPtr mem argv k) Fs.PATH_MAX = (argString mem argv k).length + 1 := by
  have := h.1
  simp only [argString, length_bytes]
  omega

@[simp] theorem length_argStrings {mem : Nat → Nat} {argv n : Nat} : (argStrings mem argv n).length = n := by
  simp [argStrings]

theorem argStrings_succ {mem : Nat → Nat} {argv n : Nat} :
    argStrings mem argv (n + 1) = argStrings mem argv n ++ [argString mem argv n] := by
  simp [argStrings, List.range_succ]

theorem OsGetParamNum.loop_le {mem : Nat → Nat} {argv : Nat} :
    ∀ fuel count, OsGetParamNum.loop mem argv fuel count ≤ count + fuel
  | 0, count => le_refl _
  | fuel + 1, count => by
    have ih : OsGetParamNum.loop mem argv fuel (count + 1) ≤ count + 1 + fuel :=
      OsGetParamNum.loop_le fuel (count + 1)
    simp only [OsGetParamNum.loop]
    split_ifs <;> omega

/-- Every string below the count of the loop from `count` is counted. -/
theorem OsGetParamNum.loop_ok {mem : Nat → Nat} {argv k : Nat} :
    ∀ fuel count, count ≤ k → k < OsGetParamNum.loop mem argv fuel count → ArgOk mem argv k
  | 0, count, hk, hlt => by simp [OsGetParamNum.loop] at hlt; omega
  | fuel + 1, count, hk, hlt => by
    simp only [OsGetParamNum.loop] at hlt
    split_ifs at hlt with hnull hbad hmax
    · omega
    · omega
    · -- the round at `count` passed its check
      have hk' : k = count := by omega
      subst hk'
      exact ⟨by omega, by omega⟩
    · rcases Nat.lt_or_ge k (count + 1) with hlt' | hge
      · have hk' : k = count := by omega
        subst hk'
        exact ⟨by omega, by omega⟩
      · exact OsGetParamNum.loop_ok fuel (count + 1) hge hlt

theorem OsGetParamNum_ok {mem : Nat → Nat} {argv k : Nat} (hk : k < OsGetParamNum mem argv) :
    ArgOk mem argv k := by
  unfold OsGetParamNum at hk
  split_ifs at hk
  · omega
  · exact OsGetParamNum.loop_ok _ 0 (Nat.zero_le k) hk

theorem OsGetParamNum_le {mem : Nat → Nat} {argv : Nat} : OsGetParamNum mem argv ≤ STRINGS_COUNT_MAX := by
  unfold OsGetParamNum
  split_ifs
  · exact Nat.zero_le _
  · have h : OsGetParamNum.loop mem argv STRINGS_COUNT_MAX 0 ≤ 0 + STRINGS_COUNT_MAX :=
      OsGetParamNum.loop_le STRINGS_COUNT_MAX 0
    omega

/-- The array is not `NULL` where it has a string. -/
theorem OsGetParamNum_pos {mem : Nat → Nat} {argv : Nat} (h : 0 < OsGetParamNum mem argv) : argv ≠ NULL := by
  intro hnull
  simp [OsGetParamNum, hnull] at h

-- ============================================================ the copies

/-- The strings copied so far lie in the parameter page of a stack in
the user space: from `topOfMem`, above `stackParamBase`, to below
`stackTopMax`. -/
structure Area (loadInfo : ELFLoadInfo) : Prop where
  base_le : USER_ASPACE_BASE ≤ loadInfo.stackParamBase
  param_le : loadInfo.stackParamBase ≤ loadInfo.topOfMem
  top_lt : loadInfo.topOfMem < loadInfo.stackTopMax
  max_le : loadInfo.stackTopMax ≤ USER_ASPACE_TOP_MAX

theorem Area.top_lt_two_pow {loadInfo : ELFLoadInfo} (hA : Area loadInfo) : loadInfo.topOfMem < 2 ^ 32 := by
  have := hA.top_lt
  have := hA.max_le
  rw [USER_ASPACE_TOP_MAX_eq] at this
  omega

/-- `loadInfo'` is `loadInfo` with `topOfMem` at or below where it was,
and the memory from the old `topOfMem` up as it was. -/
structure Lowers (loadInfo loadInfo' : ELFLoadInfo) : Prop where
  eq : loadInfo' = { loadInfo with topOfMem := loadInfo'.topOfMem, newSpace := loadInfo'.newSpace }
  top_le : loadInfo'.topOfMem ≤ loadInfo.topOfMem
  above : ∀ x, loadInfo.topOfMem ≤ x → loadInfo'.newSpace x = loadInfo.newSpace x

theorem Lowers.refl (loadInfo : ELFLoadInfo) : Lowers loadInfo loadInfo := ⟨rfl, le_rfl, fun _ _ => rfl⟩

theorem Lowers.trans {l₁ l₂ l₃ : ELFLoadInfo} (h₁ : Lowers l₁ l₂) (h₂ : Lowers l₂ l₃) : Lowers l₁ l₃ where
  eq := by rw [h₂.eq, h₁.eq]
  top_le := le_trans h₂.top_le h₁.top_le
  above x hx := (h₂.above x (le_trans h₁.top_le hx)).trans (h₁.above x hx)

theorem Area.lowers {l l' : ELFLoadInfo} (hA : Area l) (h : Lowers l l')
    (hparam : l.stackParamBase ≤ l'.topOfMem) : Area l' := by
  have hb : l'.stackParamBase = l.stackParamBase := by rw [h.eq]
  have hm : l'.stackTopMax = l.stackTopMax := by rw [h.eq]
  exact ⟨hb ▸ hA.base_le, hb ▸ hparam, hm ▸ lt_of_le_of_lt h.top_le hA.top_lt, hm ▸ hA.max_le⟩

/-- A round of `OsCopyParams` that succeeds copies below `topOfMem` and
keeps the copy inside the page. -/
theorem OsCopyParams.step_lowers {src : Nat → Nat} {argv i : Nat} {l l' : ELFLoadInfo}
    (h : OsCopyParams.step src argv i l = .ok l') (hA : Area l) : Area l' ∧ Lowers l l' := by
  have htop := hA.top_lt_two_pow
  have hparam := hA.param_le
  have hlt := hA.top_lt
  dsimp only [OsCopyParams.step] at h
  -- whichever way the length was measured
  generalize (if LOS_IsKernelAddress _ = true then _ else _) = strLen at h
  split_ifs at h with hlen hroom
  · cases h
    exact ⟨hA, Lowers.refl l⟩
  · cases h
    -- the check leaves room below `topOfMem`, so neither subtraction wraps
    rw [u32Sub_of_le hparam htop] at hroom
    rw [u32Sub_of_le (show _ ≤ l.topOfMem by omega) htop]
    refine ⟨⟨hA.base_le, ?_, ?_, hA.max_le⟩, ⟨rfl, ?_, fun x hx => copyBlock_of_le (by omega)⟩⟩ <;>
      dsimp only <;> omega

/-- A round at a counted string copies it, with its NUL, just below
`topOfMem`. -/
theorem OsCopyParams.step_copy {src : Nat → Nat} {argv i : Nat} {l l' : ELFLoadInfo}
    (hok : ArgOk src argv i) (h : OsCopyParams.step src argv i l = .ok l') (hA : Area l) :
    l'.topOfMem + (argString src argv i).length + 1 = l.topOfMem ∧
      CStrAt l'.newSpace l'.topOfMem (argString src argv i) := by
  have htop := hA.top_lt_two_pow
  have hparam := hA.param_le
  obtain ⟨hu, hstr⟩ := hok.cstr
  dsimp only [OsCopyParams.step] at h
  simp only [LOS_IsKernelAddress_of_user hu, Bool.false_eq_true, if_false, hok.strnlen] at h
  split_ifs at h with hlen hroom
  · omega
  · cases h
    rw [u32Sub_of_le hparam htop] at hroom
    rw [u32Sub_of_le (show _ ≤ l.topOfMem by omega) htop]
    exact ⟨by dsimp only; omega, hstr.copyBlock⟩

theorem OsCopyParams.loop_lowers {src : Nat → Nat} {argv : Nat} :
    ∀ i {l l' : ELFLoadInfo}, OsCopyParams.loop src argv i l = .ok l' → Area l → Area l' ∧ Lowers l l'
  | 0, l, l', h, hA => by
    cases h
    exact ⟨hA, Lowers.refl l⟩
  | i + 1, l, l', h, hA => by
    rw [OsCopyParams.loop] at h
    cases hs : OsCopyParams.step src argv i l with
    | error e => simp [hs, bind, Except.bind] at h
    | ok mid =>
      simp only [hs, bind, Except.bind] at h
      obtain ⟨hA₁, hl₁⟩ := OsCopyParams.step_lowers hs hA
      obtain ⟨hA₂, hl₂⟩ := OsCopyParams.loop_lowers i h hA₁
      exact ⟨hA₂, hl₁.trans hl₂⟩

/-- The loop over counted strings leaves them packed from the new
`topOfMem`, in the order of the array, before what was packed already. -/
theorem OsCopyParams.loop_packed {src : Nat → Nat} {argv : Nat} :
    ∀ i {l l' : ELFLoadInfo} {ss : List (List Nat)}, (∀ k < i, ArgOk src argv k) →
      OsCopyParams.loop src argv i l = .ok l' → Area l → Packed l.newSpace l.topOfMem ss →
      l'.topOfMem + packedLen (argStrings src argv i) = l.topOfMem ∧
        Packed l'.newSpace l'.topOfMem (argStrings src argv i ++ ss)
  | 0, l, l', ss, _, h, _, hP => by
    cases h
    exact ⟨by simp [argStrings], by simpa [argStrings] using hP⟩
  | i + 1, l, l', ss, hok, h, hA, hP => by
    rw [OsCopyParams.loop] at h
    cases hs : OsCopyParams.step src argv i l with
    | error e => simp [hs, bind, Except.bind] at h
    | ok mid =>
      simp only [hs, bind, Except.bind] at h
      obtain ⟨hA₁, hl₁⟩ := OsCopyParams.step_lowers hs hA
      obtain ⟨htop₁, hstr⟩ := OsCopyParams.step_copy (hok i (by omega)) hs hA
      -- the copy of string `i` goes in front of what was packed
      have hP₁ : Packed mid.newSpace mid.topOfMem (argString src argv i :: ss) :=
        ⟨hstr, by
          rw [show mid.topOfMem + (argString src argv i).length + 1 = l.topOfMem by omega]
          exact hP.frame fun x hx _ => hl₁.above x hx⟩
      obtain ⟨htop₂, hP₂⟩ :=
        OsCopyParams.loop_packed i (fun k hk => hok k (by omega)) h hA₁ hP₁
      refine ⟨?_, ?_⟩
      · rw [argStrings_succ, packedLen_append]
        simp only [packedLen_cons, packedLen_nil] at htop₂ ⊢
        omega
      · rw [argStrings_succ, List.append_assoc]
        exact hP₂

theorem OsCopyParams_loop {src : Nat → Nat} {l l' : ELFLoadInfo} {argc argv : Nat}
    (h : OsCopyParams src l argc argv = .ok l') : OsCopyParams.loop src argv argc l = .ok l' := by
  unfold OsCopyParams at h
  split_ifs at h
  exact h

theorem OsGetRndOffset_le (randomValue : Nat) : OsGetRndOffset randomValue ≤ RANDOM_MASK := by
  have hmask : RANDOM_MASK < 2 ^ 32 := by decide
  have hand : randomValue &&& RANDOM_MASK ≤ RANDOM_MASK := Nat.and_le_right
  exact le_trans (ROUNDDOWN_page_le (by omega)) hand

/-- The top of the stack, below `USER_STACK_TOP_MAX` by the random
offset, leaves the parameter page inside the user space. -/
theorem stackTopMax_bounds (randomValue : Nat) :
    0x37000000 < u32Sub USER_STACK_TOP_MAX (OsGetRndOffset randomValue) ∧
      u32Sub USER_STACK_TOP_MAX (OsGetRndOffset randomValue) ≤ USER_ASPACE_TOP_MAX := by
  have hr := OsGetRndOffset_le randomValue
  have hmask : RANDOM_MASK = 0x7FFFFFF := by decide
  have htop : USER_STACK_TOP_MAX = 0x3F000000 := rfl
  rw [u32Sub_of_le (by omega) (by omega), htop, USER_ASPACE_TOP_MAX_eq]
  omega

/-- What `OsSetArgParams` leaves: the counts of the two arrays, and
their strings packed from `topOfMem`, `argv`'s first, inside the
parameter page. -/
structure ArgsCopied (src : Nat → Nat) (argv envp : Nat) (l : ELFLoadInfo) : Prop where
  argc_eq : l.argc = OsGetParamNum src argv
  envc_eq : l.envc = OsGetParamNum src envp
  area : Area l
  page : l.stackParamBase + USER_PARAM_BYTE_MAX = l.stackTopMax
  packed : Packed l.newSpace l.topOfMem (argStrings src argv l.argc ++ argStrings src envp l.envc)
  packed_lt : l.topOfMem + packedLen (argStrings src argv l.argc ++ argStrings src envp l.envc) < l.stackTopMax

theorem OsSetArgParams_copied {src : Nat → Nat} {loadInfo l₁ : ELFLoadInfo}
    {fileNameField argv envp randomValue : Nat} {vmAllocOk : Bool}
    (h : OsSetArgParams src loadInfo fileNameField argv envp randomValue vmAllocOk = .ok l₁) :
    ArgsCopied src argv envp l₁ := by
  simp only [OsSetArgParams, bind, Except.bind] at h
  split_ifs at h with hprot halloc
  obtain ⟨hlo, hhi⟩ := stackTopMax_bounds randomValue
  generalize u32Sub USER_STACK_TOP_MAX (OsGetRndOffset randomValue) = stm at h hlo hhi
  rw [USER_ASPACE_TOP_MAX_eq] at hhi
  have hp : u32Sub stm USER_PARAM_BYTE_MAX = stm - 0x1000 :=
    u32Sub_of_le (by simp only [USER_PARAM_BYTE_MAX]; omega) (by omega)
  have h4 : u32Sub stm 4 = stm - 4 := u32Sub_of_le (by omega) (by omega)
  -- the stack starts empty below its top word
  have hA₀ : Area { loadInfo with
      stackTopMax := stm, stackBase := u32Sub stm USER_STACK_SIZE,
      stackSize := USER_STACK_SIZE, stackParamBase := u32Sub stm USER_PARAM_BYTE_MAX,
      topOfMem := u32Sub stm 4, argc := OsGetParamNum src argv, envc := OsGetParamNum src envp } := by
    refine ⟨?_, ?_, ?_, ?_⟩ <;> dsimp only
    · rw [hp, USER_ASPACE_BASE_eq]; omega
    · rw [hp, h4]; omega
    · rw [h4]; omega
    · rw [USER_ASPACE_TOP_MAX_eq]; omega
  split at h
  · cases h
  · rename_i lf hf
    obtain ⟨hAf, hlf⟩ := OsCopyParams.loop_lowers 1 (OsCopyParams_loop hf) hA₀
    split at h
    · cases h
    · rename_i le he
      have hAf' : Area { lf with execName := lf.topOfMem } := ⟨hAf.1, hAf.2, hAf.3, hAf.4⟩
      have henvc : lf.envc = OsGetParamNum src envp := by rw [hlf.eq]
      obtain ⟨hAe, hle⟩ := OsCopyParams.loop_lowers _ (OsCopyParams_loop he) hAf'
      obtain ⟨htope, hPe⟩ := OsCopyParams.loop_packed _
        (fun k hk => OsGetParamNum_ok (by rw [← henvc]; exact hk)) (OsCopyParams_loop he) hAf'
        (show Packed _ _ ([] : List (List Nat)) from trivial)
      have hargc : le.argc = OsGetParamNum src argv := by
        have hargf : lf.argc = OsGetParamNum src argv := by rw [hlf.eq]
        rw [hle.eq]
        exact hargf
      obtain ⟨hA₁, hl₁⟩ := OsCopyParams.loop_lowers _ (OsCopyParams_loop h) hAe
      obtain ⟨htop₁, hP₁⟩ := OsCopyParams.loop_packed _
        (fun k hk => OsGetParamNum_ok (by rw [← hargc]; exact hk)) (OsCopyParams_loop h) hAe hPe
      -- the copies changed only `topOfMem` and the memory
      have hl₁argc : l₁.argc = le.argc := by rw [hl₁.eq]
      have hl₁envc : l₁.envc = lf.envc := by rw [hl₁.eq, hle.eq]
      have hl₁max : l₁.stackTopMax = stm := by rw [hl₁.eq, hle.eq, hlf.eq]
      have hl₁param : l₁.stackParamBase = u32Sub stm USER_PARAM_BYTE_MAX := by rw [hl₁.eq, hle.eq, hlf.eq]
      have hlf_top : lf.topOfMem ≤ u32Sub stm 4 := hlf.top_le
      dsimp only at htope
      rw [List.append_nil] at hP₁
      refine ⟨hl₁argc.trans hargc, hl₁envc.trans henvc, hA₁, ?_, ?_, ?_⟩
      · rw [hl₁param, hl₁max, hp]
        simp only [USER_PARAM_BYTE_MAX]
        omega
      · rw [hl₁argc, hl₁envc]
        exact hP₁
      · rw [hl₁argc, hl₁envc, packedLen_append, hl₁max]
        omega

-- ============================================================ the words

/-- A walk of `OsPutUserArgv` over strings packed from `strPtr`, with room
for its words below them, writes the start of each string and a zero from
`sp`, and changes nothing outside those words. -/
theorem OsPutUserArgv_spec :
    ∀ (ss : List (List Nat)) {mem : Nat → Nat} {strPtr sp : Nat}, Packed mem strPtr ss →
      (∀ s ∈ ss, s.length < Fs.PATH_MAX) → USER_ASPACE_BASE ≤ strPtr →
      strPtr + packedLen ss ≤ USER_ASPACE_TOP_MAX → 0 < sp → sp + 4 * (ss.length + 1) ≤ strPtr →
      ∃ mem', OsPutUserArgv mem strPtr sp ss.length =
          some (strPtr + packedLen ss, sp + 4 * (ss.length + 1), mem') ∧
        WordsAt mem' sp (packedStarts strPtr ss ++ [0]) ∧
        ∀ x, (x < sp ∨ sp + 4 * (ss.length + 1) ≤ x) → mem' x = mem x
  | [], mem, strPtr, sp, _, _, _, _, hsp, _ => by
    have hne : sp ≠ NULL := by simp only [NULL]; omega
    refine ⟨storeWord mem sp 0, ?_, ?_, ?_⟩
    · simp [OsPutUserArgv, OsPutUserArg, hne]
    · simp only [packedStarts, List.nil_append]
      exact WordsAt.cons_iff.mpr ⟨by simp, WordsAt.nil⟩
    · intro x hx
      simp only [List.length_nil] at hx
      rcases hx with hx | hx
      · exact storeWord_of_lt hx
      · exact storeWord_of_le (by omega)
  | s :: ss, mem, strPtr, sp, hP, hlen, hbase, hend, hsp, hroom => by
    simp only [List.length_cons, packedLen_cons] at hend hroom ⊢
    have hne : sp ≠ NULL := by simp only [NULL]; omega
    -- the word at `sp` lies below the strings, so they measure as before
    have hP₁ : Packed (storeWord mem sp strPtr) strPtr (s :: ss) :=
      hP.frame fun x hx _ => storeWord_of_le (by omega)
    have hs : LOS_StrnlenUser (storeWord mem sp strPtr) strPtr Fs.PATH_MAX = s.length + 1 :=
      LOS_StrnlenUser_of_cstr hP₁.1 (LOS_IsUserAddress_iff.mpr ⟨hbase, by omega⟩)
        (hlen s List.mem_cons_self) (by omega)
    obtain ⟨mem', hput, hwords, hframe⟩ := @OsPutUserArgv_spec ss _ _ (sp + 4) hP₁.2
      (fun t ht => hlen t (List.mem_cons_of_mem s ht)) (by omega) (by omega) (by omega) (by omega)
    refine ⟨mem', ?_, ?_, ?_⟩
    · simp only [OsPutUserArgv, OsPutUserArg, hne, if_false, Option.bind_eq_bind, Option.bind_some, hs,
        Nat.add_one_ne_zero, ← Nat.add_assoc, hput, Option.some.injEq, Prod.mk.injEq, and_true, true_and]
      omega
    · simp only [packedStarts, List.cons_append]
      refine WordsAt.cons_iff.mpr ⟨?_, hwords⟩
      rw [loadWord_congr fun k hk => hframe (sp + k) (Or.inl (by omega)), loadWord_storeWord]
    · intro x hx
      rw [hframe x (by omega)]
      rcases hx with hx | hx
      · exact storeWord_of_lt hx
      · exact storeWord_of_le (by omega)

theorem ROUNDDOWN_word {a : Nat} (ha : a < 2 ^ 32) : ROUNDDOWN a 4 = a / 4 * 4 :=
  @and_not_low_bits a 2 ha (by decide)

theorem ROUNDDOWN_align {a : Nat} (ha : a < 2 ^ 32) : ROUNDDOWN a STACK_ALIGN_SIZE = a / 16 * 16 :=
  @and_not_low_bits a 4 ha (by decide)

theorem auxVector_length_le (loadInfo : ELFLoadInfo) (interpMapBase vdsoLoadAddr : Nat) :
    (OsMakeArgsStack.auxVector loadInfo interpMapBase vdsoLoadAddr).length ≤ 36 := by
  unfold OsMakeArgsStack.auxVector
  split_ifs <;> simp

@[simp] theorem getElem_argStrings {mem : Nat → Nat} {argv n i : Nat} (h : i < (argStrings mem argv n).length) :
    (argStrings mem argv n)[i] = argString mem argv i := by
  simp [argStrings]

theorem argStrings_length_lt {mem : Nat → Nat} {argv n : Nat} (hok : ∀ k < n, ArgOk mem argv k) :
    ∀ s ∈ argStrings mem argv n, s.length < Fs.PATH_MAX := by
  intro s hs
  obtain ⟨k, hk, rfl⟩ := List.mem_map.mp hs
  exact (hok k (List.mem_range.mp hk)).length_lt

/-- What `OsPutParamToStack` leaves: from `stackTop` the count of `argv`,
the starts of its copies and a zero, the starts of `envp`'s copies and a
zero, then the auxiliary vector, all below the strings and inside the
page; the strings as they were. -/
structure ArgsStacked (src : Nat → Nat) (argv envp : Nat) (aux : List Nat) (l l' : ELFLoadInfo) : Prop where
  eq : l' = { l with topOfMem := l'.stackTop, stackTop := l'.stackTop, newSpace := l'.newSpace }
  words : WordsAt l'.newSpace l'.stackTop
    (l.argc :: (packedStarts l.topOfMem (argStrings src argv l.argc) ++ [0]) ++
      (packedStarts (l.topOfMem + packedLen (argStrings src argv l.argc)) (argStrings src envp l.envc) ++ [0]) ++
      aux)
  packed : Packed l'.newSpace l.topOfMem (argStrings src argv l.argc ++ argStrings src envp l.envc)
  base_le : l.stackParamBase ≤ l'.stackTop
  end_le : l'.stackTop + 4 * (l.argc + l.envc + 3 + aux.length) ≤ l.topOfMem

theorem OsPutParamToStack_stacked {src : Nat → Nat} {argv envp : Nat} {aux : List Nat} {stackMapOk : Bool}
    {l l' : ELFLoadInfo} (hc : ArgsCopied src argv envp l) (haux : aux.length ≤ 36)
    (h : OsPutParamToStack l aux stackMapOk = .ok l') : ArgsStacked src argv envp aux l l' := by
  have hT := hc.area.top_lt_two_pow
  have hpb := hc.area.base_le
  have hpt := hc.area.param_le
  have hTm := hc.area.top_lt
  have hmax := hc.area.max_le
  have hpage := hc.page
  have hlt := hc.packed_lt
  have hargc : l.argc ≤ STRINGS_COUNT_MAX := hc.argc_eq ▸ OsGetParamNum_le
  have henvc : l.envc ≤ STRINGS_COUNT_MAX := hc.envc_eq ▸ OsGetParamNum_le
  simp only [USER_ASPACE_BASE_eq, USER_ASPACE_TOP_MAX_eq, USER_PARAM_BYTE_MAX, STRINGS_COUNT_MAX,
    packedLen_append] at hpb hmax hpage hargc henvc hlt
  simp only [OsPutParamToStack, bind, Except.bind] at h
  -- the words take `4 * k` bytes, well inside the user space: no subtraction wraps
  have hk : u32Sub (l.topOfMem / 4 * 4) (4 * (aux.length + (l.argc + 1 + (l.envc + 1) + 1))) =
      l.topOfMem / 4 * 4 - 4 * (aux.length + (l.argc + 1 + (l.envc + 1) + 1)) :=
    u32Sub_of_le (by omega) (by omega)
  rw [ROUNDDOWN_word hT, hk, ROUNDDOWN_align (by omega)] at h
  generalize ht : (l.topOfMem / 4 * 4 - 4 * (aux.length + (l.argc + 1 + (l.envc + 1) + 1))) / 16 * 16 = t at h
  have ht₁ : t + 4 * (aux.length + (l.argc + 1 + (l.envc + 1) + 1)) ≤ l.topOfMem := by omega
  split at h
  · cases h
  rename_i hbig
  rw [u32Sub_of_le (by omega) (by omega), USER_PARAM_BYTE_MAX] at hbig
  -- the word of `argc`
  have hne : t ≠ NULL := by simp only [NULL]; omega
  have hput₀ : OsPutUserArg l.newSpace l.argc t = some (storeWord l.newSpace t l.argc) := by
    simp only [OsPutUserArg, hne, if_false]
  rw [hput₀] at h
  dsimp only at h
  have hP := Packed.append_iff.mp hc.packed
  -- the walk over `argv`'s copies
  obtain ⟨mem₂, hput₁, hw₁, hf₁⟩ := @OsPutUserArgv_spec (argStrings src argv l.argc)
    (storeWord l.newSpace t l.argc) l.topOfMem (t + 4)
    (hP.1.frame fun x hx _ => storeWord_of_le (by omega))
    (argStrings_length_lt fun k hk => OsGetParamNum_ok (hc.argc_eq ▸ hk))
    (by rw [USER_ASPACE_BASE_eq]; omega) (by rw [USER_ASPACE_TOP_MAX_eq]; omega) (by omega)
    (by rw [length_argStrings]; omega)
  rw [length_argStrings] at hput₁ hf₁
  rw [hput₁] at h
  dsimp only at h
  -- the walk over `envp`'s copies
  obtain ⟨mem₃, hput₂, hw₂, hf₂⟩ := @OsPutUserArgv_spec (argStrings src envp l.envc)
    mem₂ (l.topOfMem + packedLen (argStrings src argv l.argc)) (t + 4 + 4 * (l.argc + 1))
    (hP.2.frame fun x hx _ => (hf₁ x (Or.inr (by omega))).trans (storeWord_of_le (by omega)))
    (argStrings_length_lt fun k hk => OsGetParamNum_ok (hc.envc_eq ▸ hk))
    (by rw [USER_ASPACE_BASE_eq]; omega) (by rw [USER_ASPACE_TOP_MAX_eq]; omega) (by omega)
    (by rw [length_argStrings]; omega)
  rw [length_argStrings] at hput₂ hf₂
  rw [hput₂] at h
  dsimp only at h
  split at h
  · cases h
  cases h
  -- the vector's words lie below the strings, above the words of the walks
  set mem₄ := storeWords mem₃ (t + 4 + 4 * (l.argc + 1) + 4 * (l.envc + 1)) aux with hmem₄
  have hlow : ∀ x, x < t + 4 + 4 * (l.argc + 1) + 4 * (l.envc + 1) → mem₄ x = mem₃ x :=
    fun x hx => storeWords_of_lt hx
  have hhigh : ∀ x, l.topOfMem ≤ x → mem₄ x = l.newSpace x := fun x hx => by
    rw [hmem₄, storeWords_of_le (by omega), hf₂ x (Or.inr (by omega)), hf₁ x (Or.inr (by omega)),
      storeWord_of_le (by omega)]
  refine ⟨rfl, ?_, hc.packed.frame fun x hx _ => hhigh x hx, by dsimp only; omega, by dsimp only; omega⟩
  dsimp only
  -- the four runs of words, each from where the one before ends
  have h₀ : loadWord mem₄ t = l.argc % 2 ^ 32 := by
    rw [loadWord_congr fun k hk => (hlow _ (by omega)).trans
      ((hf₂ _ (Or.inl (by omega))).trans (hf₁ _ (Or.inl (by omega)))), loadWord_storeWord]
  have hA : WordsAt mem₄ (t + 4) (packedStarts l.topOfMem (argStrings src argv l.argc) ++ [0]) :=
    hw₁.frame fun x _ h₂ => by
      simp only [List.length_append, length_packedStarts, length_argStrings, List.length_singleton] at h₂
      exact (hlow x (by omega)).trans (hf₂ x (Or.inl (by omega)))
  have hE : WordsAt mem₄ (t + 4 + 4 * (l.argc + 1))
      (packedStarts (l.topOfMem + packedLen (argStrings src argv l.argc)) (argStrings src envp l.envc) ++ [0]) :=
    hw₂.frame fun x _ h₂ => by
    simp only [List.length_append, length_packedStarts, length_argStrings, List.length_singleton] at h₂
    exact hlow x (by omega)
  have hX : WordsAt mem₄ (t + 4 + 4 * (l.argc + 1) + 4 * (l.envc + 1)) aux := WordsAt.storeWords
  refine WordsAt.append_iff.mpr ⟨WordsAt.append_iff.mpr ⟨WordsAt.cons_iff.mpr ⟨h₀, hA⟩, ?_⟩, ?_⟩
  · convert hE using 1
    simp only [List.length_cons, List.length_append, length_packedStarts, length_argStrings, List.length_nil]
    omega
  · convert hX using 1
    simp only [List.length_cons, List.length_append, length_packedStarts, length_argStrings, List.length_nil]
    omega

-- ============================================================ exec

/-- The copies of an array's strings, read from the addresses the stack
holds, are the strings of the array, inside the page. -/
theorem packed_copy_decodes {src mem : Nat → Nat} {arr n p base top : Nat} (hok : ∀ k < n, ArgOk src arr k)
    (hP : Packed mem p (argStrings src arr n)) (hbase : base ≤ p) (htop : p + packedLen (argStrings src arr n) ≤ top)
    (i : Nat) (hi : i < (packedStarts p (argStrings src arr n)).length) :
    ∃ s, CStrAt src (OsGetParamPtr src arr i) s ∧ CStrAt mem (packedStarts p (argStrings src arr n))[i] s ∧
      base ≤ (packedStarts p (argStrings src arr n))[i] ∧ (packedStarts p (argStrings src arr n))[i] + s.length < top := by
  have hi' : i < (argStrings src arr n).length := by simpa using hi
  have hstr := hP.getElem hi' hi
  obtain ⟨hlo, hhi⟩ := packedStarts_bounds hi' hi
  rw [getElem_argStrings] at hstr hhi
  refine ⟨argString src arr i, (hok i (by simpa using hi')).cstr.2, hstr, by omega, by omega⟩

/-- After `OsSetArgParams` and `OsMakeArgsStack` succeed, the words from
`stackTop` are the count of `argv`, the addresses of copies of its
strings, a zero, the addresses of copies of `envp`'s strings, a zero,
and the auxiliary vector, which ends with `AUX_NULL`; the words and the
copies lie in the parameter page, below `stackTopMax`. -/
theorem exec_args_stack_decodes {src : Nat → Nat} {loadInfo info₁ info₂ : ELFLoadInfo}
    {fileNameField argv envp randomValue interpMapBase vdsoLoadAddr : Nat} {vmAllocOk stackMapOk : Bool}
    (h₁ : OsSetArgParams src loadInfo fileNameField argv envp randomValue vmAllocOk = .ok info₁)
    (h₂ : OsMakeArgsStack info₁ interpMapBase vdsoLoadAddr stackMapOk = .ok info₂) :
    ∃ argPtrs envPtrs : List Nat,
      argPtrs.length = OsGetParamNum src argv ∧ envPtrs.length = OsGetParamNum src envp ∧
      WordsAt info₂.newSpace info₂.stackTop
        (OsGetParamNum src argv :: (argPtrs ++ [0]) ++ (envPtrs ++ [0]) ++
          OsMakeArgsStack.auxVector info₁ interpMapBase vdsoLoadAddr) ∧
      (∀ i (hi : i < argPtrs.length), ∃ s, CStrAt src (OsGetParamPtr src argv i) s ∧
        CStrAt info₂.newSpace argPtrs[i] s ∧ info₂.stackParamBase ≤ argPtrs[i] ∧
        argPtrs[i] + s.length < info₂.stackTopMax) ∧
      (∀ j (hj : j < envPtrs.length), ∃ s, CStrAt src (OsGetParamPtr src envp j) s ∧
        CStrAt info₂.newSpace envPtrs[j] s ∧ info₂.stackParamBase ≤ envPtrs[j] ∧
        envPtrs[j] + s.length < info₂.stackTopMax) ∧
      (∃ aux₀, OsMakeArgsStack.auxVector info₁ interpMapBase vdsoLoadAddr = aux₀ ++ [AUX_NULL, 0]) ∧
      info₂.stackParamBase ≤ info₂.stackTop ∧
      info₂.stackTop + 4 * (OsGetParamNum src argv + OsGetParamNum src envp + 3 +
        (OsMakeArgsStack.auxVector info₁ interpMapBase vdsoLoadAddr).length) ≤ info₂.stackTopMax := by
  have hc := OsSetArgParams_copied h₁
  have hs := OsPutParamToStack_stacked hc (auxVector_length_le info₁ interpMapBase vdsoLoadAddr) h₂
  -- the stack's bounds are those `OsSetArgParams` set
  have hparam : info₂.stackParamBase = info₁.stackParamBase := by rw [hs.eq]
  have hmax : info₂.stackTopMax = info₁.stackTopMax := by rw [hs.eq]
  have hpt := hc.area.param_le
  have htm := hc.area.top_lt
  have hlt := hc.packed_lt
  have hP := Packed.append_iff.mp hs.packed
  rw [packedLen_append] at hlt
  refine ⟨packedStarts info₁.topOfMem (argStrings src argv info₁.argc),
    packedStarts (info₁.topOfMem + packedLen (argStrings src argv info₁.argc)) (argStrings src envp info₁.envc),
    by simp [hc.argc_eq], by simp [hc.envc_eq], ?_, ?_, ?_, ⟨_, rfl⟩, ?_, ?_⟩
  · rw [← hc.argc_eq]
    exact hs.words
  · rw [hparam, hmax]
    exact packed_copy_decodes (fun k hk => OsGetParamNum_ok (hc.argc_eq ▸ hk)) hP.1 hpt (by omega)
  · rw [hparam, hmax]
    exact packed_copy_decodes (fun k hk => OsGetParamNum_ok (hc.envc_eq ▸ hk)) hP.2 (by omega) (by omega)
  · exact hparam ▸ hs.base_le
  · have hend := hs.end_le
    rw [hc.argc_eq, hc.envc_eq] at hend
    omega

/-- A caller's memory for exec of "/bin/sh" with the one argument "sh"
and no environment: the file name field at 0x1000000, then the arrays
argv at 0x1000004 and envp at 0x100000C, and the strings from 0x1000100. -/
def shSrc : Nat → Nat :=
  storeWords (fun x => if 0x1000100 ≤ x then
      [0x2f, 0x62, 0x69, 0x6e, 0x2f, 0x73, 0x68, 0, 0x73, 0x68, 0].getD (x - 0x1000100) 0 else 0)
    0x1000000 [0x1000100, 0x1000108, 0, 0]

/-- A load info with a read-write stack and an empty new space. -/
def shLoadInfo : ELFLoadInfo where
  execInfo := ⟨0x2000, ⟨[0x7f, 0x45, 0x4c, 0x46], LD_ET_EXEC, LD_EM_ARM, 0x1000100, 52, 32, 1⟩, []⟩
  newSpace := fun _ => 0
  stackTopMax := 0
  stackBase := 0
  stackSize := 0
  stackParamBase := 0
  topOfMem := 0
  stackTop := 0
  argc := 0
  envc := 0
  execName := 0
  stackProt := PROT_READ ||| PROT_WRITE
  loadAddr := 0x1000000

theorem exec_args_stack_decodes_sh :
    ∃ info₁ info₂ : ELFLoadInfo,
      OsSetArgParams shSrc shLoadInfo 0x1000000 0x1000004 0x100000C 0 true = .ok info₁ ∧
      OsMakeArgsStack info₁ 0 0 true = .ok info₂ ∧
      ∃ p, loadWord info₂.newSpace info₂.stackTop = 1 ∧
        loadWord info₂.newSpace (info₂.stackTop + 4) = p % 2 ^ 32 ∧ CStrAt info₂.newSpace p [0x73, 0x68] := by
  have key : ∀ info₁ info₂ : ELFLoadInfo,
      OsSetArgParams shSrc shLoadInfo 0x1000000 0x1000004 0x100000C 0 true = .ok info₁ →
      OsMakeArgsStack info₁ 0 0 true = .ok info₂ →
      ∃ p, loadWord info₂.newSpace info₂.stackTop = 1 ∧
        loadWord info₂.newSpace (info₂.stackTop + 4) = p % 2 ^ 32 ∧ CStrAt info₂.newSpace p [0x73, 0x68] := by
    intro info₁ info₂ h₁ h₂
    obtain ⟨argPtrs, envPtrs, hargs, -, hw, hdec, -⟩ := exec_args_stack_decodes h₁ h₂
    have hn : OsGetParamNum shSrc 0x1000004 = 1 := by decide
    rw [hn] at hargs hw
    obtain ⟨p, rfl⟩ := List.length_eq_one_iff.mp hargs
    obtain ⟨s, hsrc, hcopy, -⟩ := hdec 0 (by simp)
    have hsh : CStrAt shSrc (OsGetParamPtr shSrc 0x1000004 0) [0x73, 0x68] := ⟨by decide, by decide, by decide⟩
    rw [hsrc.unique hsh] at hcopy
    exact ⟨p, by simpa using hw 0 (by simp), by simpa using hw 1 (by simp), hcopy⟩
  exact ⟨_, _, rfl, rfl, key _ _ rfl rfl⟩

end LiteOsA.Elf
