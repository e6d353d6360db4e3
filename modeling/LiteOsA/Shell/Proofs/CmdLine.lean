/-
What `OsCmdKeyShift` leaves in the kernel pool, and what the parser
makes of a line it squeezed.

The scan's buffer comes from `LOS_MemAlloc`, so its address is a held
pointer of the pool, word aligned (`Tracked.live_mod`). When the
squeezed line starts with a space the code steps `output` past it and
frees `output`: the address is one byte off the grid, `LOS_MemFree`
refuses it, and the buffer stays allocated with no one holding it
(`OsCmdKeyShift_leaks`). Otherwise the buffer is freed and the pool
holds what it held before (`OsCmdKeyShift_frees`).
-/
import LiteOsA.Shell.CmdParse
import LiteOsA.Mem.Proofs.TlsfRun

namespace LiteOsA.Shell

open Tlsf

variable {pool : Nat} {s : Sys} {bs : List Blk} {fl : Nat → List Nat}

/-- When the squeezed line starts with a space, a call that returns
`LOS_OK` leaves the buffer allocated: the pool is tracked with one more
held pointer than before, which nothing holds. -/
theorem OsCmdKeyShift_leaks {cmdKey : List Char} {size : Nat} {out : Option (List Char)} {p' : Pool}
    (h : Tracked pool s bs fl) (hsz : cmdKey.length + 1 < 2 ^ 32)
    (hsp : (OsCmdKeyShift.scan cmdKey false).head? = some ' ')
    (hcall : OsCmdKeyShift pool s.pool cmdKey size = some (LOS_OK, out, p')) :
    ∃ ptr bs' fl', ptr ≠ NULL ∧ Tracked pool ⟨p', ptr :: s.live⟩ bs' fl' := by
  have herr : OS_ERROR ≠ LOS_OK := by decide
  simp only [OsCmdKeyShift, hsp, if_true, Option.bind_eq_bind] at hcall
  split at hcall
  · simp [herr] at hcall
  cases halloc : LOS_MemAlloc s.pool (cmdKey.length + 1) with
  | none => simp [halloc] at hcall
  | some r =>
    obtain ⟨ptr, p₁⟩ := r
    simp only [halloc, Option.bind_some] at hcall
    split at hcall
    · simp [herr] at hcall
    rename_i hnull
    -- the buffer is held, and its address one byte on is off the grid
    obtain ⟨bs', fl', h'⟩ := h.alloc hsz halloc
    rw [if_neg hnull] at h'
    have hmod := h'.live_mod List.mem_cons_self
    rw [LOS_MemFree_of_mod_ne (by omega)] at hcall
    split at hcall
    · simp [herr] at hcall
    · simp only [Option.bind_some, Option.pure_def, Option.some.injEq, Prod.mk.injEq] at hcall
      obtain ⟨-, -, rfl⟩ := hcall
      exact ⟨ptr, bs', fl', hnull, h'⟩

/-- Otherwise the buffer is freed: whatever the call returns, the pool
is tracked with the pointers held before. -/
theorem OsCmdKeyShift_frees {cmdKey : List Char} {size ret : Nat} {out : Option (List Char)} {p' : Pool}
    (h : Tracked pool s bs fl) (hsz : cmdKey.length + 1 < 2 ^ 32)
    (hsp : (OsCmdKeyShift.scan cmdKey false).head? ≠ some ' ')
    (hcall : OsCmdKeyShift pool s.pool cmdKey size = some (ret, out, p')) :
    ∃ bs' fl', Tracked pool ⟨p', s.live⟩ bs' fl' := by
  simp only [OsCmdKeyShift, hsp, if_false, Option.bind_eq_bind] at hcall
  split at hcall
  · simp only [Option.pure_def, Option.some.injEq, Prod.mk.injEq] at hcall
    obtain ⟨-, -, rfl⟩ := hcall
    exact ⟨bs, fl, h⟩
  cases halloc : LOS_MemAlloc s.pool (cmdKey.length + 1) with
  | none => simp [halloc] at hcall
  | some r =>
    obtain ⟨ptr, p₁⟩ := r
    simp only [halloc, Option.bind_some] at hcall
    obtain ⟨bs', fl', h'⟩ := h.alloc hsz halloc
    split at hcall
    · rename_i hnull
      rw [if_pos hnull] at h'
      simp only [Option.pure_def, Option.some.injEq, Prod.mk.injEq] at hcall
      obtain ⟨-, -, rfl⟩ := hcall
      exact ⟨bs', fl', h'⟩
    rename_i hnull
    rw [if_neg hnull] at h'
    -- the buffer is freed from the address it was handed out at
    obtain ⟨p₂, bs'', fl'', hfree, h''⟩ := h'.free List.mem_cons_self
    rw [List.erase_cons_head] at h''
    rw [hfree] at hcall
    split at hcall <;>
      simp only [Option.bind_some, Option.pure_def, Option.some.injEq, Prod.mk.injEq] at hcall <;>
      obtain ⟨-, -, rfl⟩ := hcall <;>
      exact ⟨bs'', fl'', h''⟩

-- ============================================================ the parameters

/-- `cmdParsed'` has the type of `cmdParsed` and every parameter it had,
and maybe more. -/
structure CmdParsed.Extends (cmdParsed cmdParsed' : CmdParsed) : Prop where
  cmdType : cmdParsed'.cmdType = cmdParsed.cmdType
  paramCnt : cmdParsed.paramCnt ≤ cmdParsed'.paramCnt
  paramArray : ∀ i < cmdParsed.paramCnt, cmdParsed'.paramArray i = cmdParsed.paramArray i

theorem CmdParsed.Extends.refl (cmdParsed : CmdParsed) : cmdParsed.Extends cmdParsed :=
  ⟨rfl, le_rfl, fun _ _ => rfl⟩

theorem CmdParsed.Extends.trans {c₁ c₂ c₃ : CmdParsed} (h₁ : c₁.Extends c₂) (h₂ : c₂.Extends c₃) :
    c₁.Extends c₃ :=
  ⟨h₂.cmdType.trans h₁.cmdType, le_trans h₁.paramCnt h₂.paramCnt,
    fun i hi => (h₂.paramArray i (lt_of_lt_of_le hi h₁.paramCnt)).trans (h₁.paramArray i hi)⟩

/-- `OsCmdParseOneToken` writes only the parameter at the count. -/
theorem OsCmdParseOneToken_extends {p p' : Pool} {cmdParsed cmdParsed' : CmdParsed} {index ret : Nat}
    {token : List Char} (h : OsCmdParseOneToken p cmdParsed index token = some (ret, cmdParsed', p')) :
    cmdParsed.Extends cmdParsed' := by
  -- the write at the count leaves the parameters below it
  have hupd : ∀ v : Nat × List Char, ∀ i < cmdParsed.paramCnt,
      Function.update cmdParsed.paramArray cmdParsed.paramCnt v i = cmdParsed.paramArray i :=
    fun v i hi => Function.update_of_ne (by omega) _ _
  unfold OsCmdParseOneToken at h
  simp only [Option.bind_eq_bind] at h
  split at h
  · simp only [Option.pure_def, Option.some.injEq, Prod.mk.injEq] at h
    obtain ⟨-, rfl, -⟩ := h
    exact .refl _
  split at h
  · cases hdup : OsCmdParseStrdup p token with
    | none => simp [hdup] at h
    | some r =>
      simp only [hdup, Option.bind_some] at h
      split at h <;> simp only [Option.pure_def, Option.some.injEq, Prod.mk.injEq] at h <;>
        obtain ⟨-, rfl, -⟩ := h <;> exact ⟨rfl, by dsimp only; omega, hupd _⟩
  · simp only [Option.pure_def, Option.some.injEq, Prod.mk.injEq] at h
    obtain ⟨-, rfl, -⟩ := h
    exact .refl _

/-- Once `ret` is not `LOS_OK` the loop stops where it is. -/
theorem OsCmdTokenSplit.loop_stop {split : Char} {st : SplitLoop} (hret : st.ret ≠ LOS_OK) :
    ∀ (cs : List Char) (cmdParsed : CmdParsed) (p : Pool),
      OsCmdTokenSplit.loop split cs st cmdParsed p = some (st, cmdParsed, p)
  | [], _, _ => rfl
  | _ :: _, _, _ => by rw [OsCmdTokenSplit.loop, if_pos hret]

/-- The loop only adds parameters. -/
theorem OsCmdTokenSplit.loop_extends {split : Char} :
    ∀ (cs : List Char) {st st' : SplitLoop} {cmdParsed cmdParsed' : CmdParsed} {p p' : Pool},
      OsCmdTokenSplit.loop split cs st cmdParsed p = some (st', cmdParsed', p') → cmdParsed.Extends cmdParsed'
  | [], st, st', cmdParsed, cmdParsed', p, p', h => by
    simp only [OsCmdTokenSplit.loop, Option.some.injEq, Prod.mk.injEq] at h
    obtain ⟨-, rfl, -⟩ := h
    exact .refl _
  | c :: rest, st, st', cmdParsed, cmdParsed', p, p', h => by
    rw [OsCmdTokenSplit.loop] at h
    split at h
    · simp only [Option.some.injEq, Prod.mk.injEq] at h
      obtain ⟨-, rfl, -⟩ := h
      exact .refl _
    -- a round either hands a token over or only moves on
    split at h <;> dsimp only at h <;> split_ifs at h <;>
      first
      | exact loop_extends rest h
      | simp only [Option.bind_eq_bind, Option.bind_eq_some_iff] at h
        obtain ⟨⟨ret, cmdParsed₁, p₁⟩, hone, h⟩ := h
        exact (OsCmdParseOneToken_extends hone).trans (loop_extends rest h)

/-- The first token of a `CMD_TYPE_STD` command with no parameters yet,
when taken, is parameter 0, its quotes deleted. -/
theorem OsCmdParseOneToken_first {p p' : Pool} {cmdParsed cmdParsed' : CmdParsed} {token : List Char}
    (hstd : cmdParsed.cmdType = .CMD_TYPE_STD) (hcnt : cmdParsed.paramCnt = 0)
    (h : OsCmdParseOneToken p cmdParsed 0 token = some (LOS_OK, cmdParsed', p')) :
    cmdParsed'.paramCnt = 1 ∧
      ∃ ptr, cmdParsed'.paramArray 0 = (ptr, token.filter fun c => c ≠ DOUBLE_QUOTE ∧ c ≠ SINGLE_QUOTE) := by
  have hnok : LOS_NOK ≠ LOS_OK := by decide
  simp only [OsCmdParseOneToken, hstd, ne_eq, not_true_eq_false, and_false, if_false, hcnt,
    show 0 < CMD_MAX_PARAS by decide, if_true, Option.bind_eq_bind, Option.bind_eq_some_iff] at h
  obtain ⟨⟨value, str, p₁⟩, hdup, h⟩ := h
  simp only [OsCmdParseStrdup, Option.bind_eq_bind, Option.bind_eq_some_iff] at hdup
  obtain ⟨⟨newStr, p₂⟩, -, hdup⟩ := hdup
  split at hdup <;> simp only [Option.pure_def, Option.some.injEq, Prod.mk.injEq] at hdup <;>
    obtain ⟨rfl, rfl, rfl⟩ := hdup
  · simp [hnok] at h
  · rename_i hnull
    simp only [hnull, if_false, Option.pure_def, Option.some.injEq, Prod.mk.injEq] at h
    obtain ⟨-, rfl, -⟩ := h
    exact ⟨rfl, newStr, by simp⟩

/-- The parameters start with parameter 0 when there is one. -/
theorem CmdParsed.params_head {cmdParsed : CmdParsed} (h : 0 < cmdParsed.paramCnt) :
    cmdParsed.params.head? = some (cmdParsed.paramArray 0).2 := by
  obtain ⟨n, hn⟩ := Nat.exists_eq_add_of_lt h
  simp [CmdParsed.params, hn, List.range_succ_eq_map]

/-- A line that starts with the separator hands the empty token over
first: a `CMD_TYPE_STD` command with no parameters yet, parsed with
`LOS_OK`, has the empty string as its first parameter. -/
theorem OsCmdTokenSplit_leading_split {p p' : Pool} {rest : List Char} {split : Char}
    {cmdParsed cmdParsed' : CmdParsed} (hstd : cmdParsed.cmdType = .CMD_TYPE_STD)
    (hcnt : cmdParsed.paramCnt = 0) (hq : split ≠ DOUBLE_QUOTE)
    (h : OsCmdTokenSplit p (split :: rest) split cmdParsed = some (LOS_OK, cmdParsed', p')) :
    cmdParsed'.params.head? = some [] := by
  simp only [OsCmdTokenSplit, Option.bind_eq_bind, Option.bind_eq_some_iff] at h
  obtain ⟨⟨st, cmdParsed₂, p₂⟩, hloop, h⟩ := h
  -- the first round ends the token at once, outside quotes
  have hquotes : switchQuotes split false = false := by simp [switchQuotes, hq]
  simp only [OsCmdTokenSplit.loop, ne_eq, not_true_eq_false, if_false, hquotes, and_self, if_true,
    Option.bind_eq_bind, Option.bind_eq_some_iff] at hloop
  obtain ⟨⟨ret₁, cmdParsed₁, p₁⟩, hone, hloop⟩ := hloop
  by_cases hret : ret₁ = LOS_OK
  · subst hret
    obtain ⟨hcnt₁, ptr, harr⟩ := OsCmdParseOneToken_first hstd hcnt hone
    -- what follows only adds parameters
    have hext : cmdParsed₁.Extends cmdParsed' := by
      refine (OsCmdTokenSplit.loop_extends rest hloop).trans ?_
      split at h
      · exact OsCmdParseOneToken_extends h
      · simp only [Option.pure_def, Option.some.injEq, Prod.mk.injEq] at h
        obtain ⟨-, rfl, -⟩ := h
        exact .refl _
    rw [CmdParsed.params_head (by have := hext.paramCnt; omega), hext.paramArray 0 (by omega), harr]
    rfl
  · -- a failed copy stops the loop, and the call returns its error
    rw [OsCmdTokenSplit.loop_stop hret] at hloop
    simp only [Option.some.injEq, Prod.mk.injEq] at hloop
    obtain ⟨rfl, rfl, rfl⟩ := hloop
    simp [hret] at h

/-- The line `' ' a` (a single quote, a space, a single quote, a space,
`a`) on a fresh pool: the scan keeps both spaces, so `OsCmdKeyShift`
writes " a" and leaves its 20-byte buffer allocated; the parse of " a"
as a `CMD_TYPE_STD` command gives the parameters "" and "a", where the
line stands for the one token "a". -/
theorem key_shift_leaks_empty_token :
    ∃ p₀ p₁ p₂ cmdParsed,
      LOS_MemInit 0x1000 0x1000 zeroPool = some (LOS_OK, p₀) ∧
      OsCmdKeyShift 0x1000 p₀ [SINGLE_QUOTE, ' ', SINGLE_QUOTE, ' ', 'a'] (SHOW_MAX_LEN - 1) =
        some (LOS_OK, some [' ', 'a'], p₁) ∧
      LOS_MemTotalUsedGet 0x1000 p₀ = 0 ∧ LOS_MemTotalUsedGet 0x1000 p₁ = 20 ∧
      OsCmdTokenSplit p₁ [' ', 'a'] ' ' ⟨.CMD_TYPE_STD, 0, fun _ => (NULL, [])⟩ = some (LOS_OK, cmdParsed, p₂) ∧
      cmdParsed.params = [[], ['a']] ∧ refTokens [SINGLE_QUOTE, ' ', SINGLE_QUOTE, ' ', 'a'] = [['a']] :=
  ⟨_, _, _, _, rfl, rfl, by decide, by decide, rfl, by decide, by decide⟩

end LiteOsA.Shell
