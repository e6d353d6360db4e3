/-
A memory of bytes, `Nat → Nat` from addresses to byte values, and what
code lays out in one: little-endian 32-bit words and NUL-terminated
strings.

`storeWord` writes the four bytes of a word and `loadWord` reads them
back: a load sees the last store at its address (`loadWord_storeWord`)
and nothing of a store that does not overlap it. `WordsAt mem a vs`
says that the words from `a` are `vs`; it grows by a store just past
its end (`WordsAt.push`) and survives stores elsewhere (`WordsAt.frame`).

`firstZero mem p n` searches the first `n` bytes from `p` for a NUL, as
a bounded string length does. `CStrAt mem p s` says that the string `s`,
with no NUL in it, starts at `p` and has its NUL after it; a search that
reaches past its end finds its length (`CStrAt.firstZero`), and a search
that finds a NUL finds a string (`CStrAt.of_firstZero`). A copy of a
string's bytes with its NUL is the same string at the target
(`CStrAt.copyBlock`). `Packed mem p ss` says that the strings `ss` follow
one another from `p`, each after the NUL of the one before, as an
argument area lays them out, and `packedStarts p ss` lists where each
starts.
-/
import LiteOsA.Lib.Ring

-- ============================================================ words

/-- `mem` with the little-endian word `v` (its low 32 bits) at `a`. -/
def storeWord (mem : Nat → Nat) (a v : Nat) : Nat → Nat :=
  fun x => if a ≤ x ∧ x < a + 4 then v / 256 ^ (x - a) % 256 else mem x

/-- The little-endian word at `a`. -/
def loadWord (mem : Nat → Nat) (a : Nat) : Nat :=
  mem a + 256 * mem (a + 1) + 65536 * mem (a + 2) + 16777216 * mem (a + 3)

/-- `mem` with the words `vs` one after another from `a`. -/
def storeWords (mem : Nat → Nat) (a : Nat) : List Nat → Nat → Nat
  | [] => mem
  | v :: vs => storeWords (storeWord mem a v) (a + 4) vs

/-- The words from `a` are `vs`, each as its low 32 bits. -/
def WordsAt (mem : Nat → Nat) (a : Nat) (vs : List Nat) : Prop :=
  ∀ i (h : i < vs.length), loadWord mem (a + 4 * i) = vs[i] % 2 ^ 32

section words

variable {mem mem' : Nat → Nat} {a b v x : Nat} {vs : List Nat}

theorem storeWord_of_lt (hx : x < a) : storeWord mem a v x = mem x := by
  simp [storeWord, Nat.not_le.2 hx]

theorem storeWord_of_le (hx : a + 4 ≤ x) : storeWord mem a v x = mem x := by
  simp [storeWord, Nat.not_lt.2 hx]

@[simp] theorem loadWord_storeWord : loadWord (storeWord mem a v) a = v % 2 ^ 32 := by
  simp only [loadWord, storeWord]
  simp only [Nat.le_refl, Nat.le_add_right, true_and, show a + 1 < a + 4 by omega,
    show a + 2 < a + 4 by omega, show a + 3 < a + 4 by omega, show a < a + 4 by omega, if_true,
    Nat.sub_self, Nat.add_sub_cancel_left, pow_zero, pow_one, Nat.div_one, Nat.reducePow]
  omega

/-- A load of four bytes that a store does not touch. -/
theorem loadWord_storeWord_of_disjoint (h : b + 4 ≤ a ∨ a + 4 ≤ b) :
    loadWord (storeWord mem a v) b = loadWord mem b := by
  rcases h with h | h
  · simp only [loadWord, storeWord_of_lt (show b < a by omega), storeWord_of_lt (show b + 1 < a by omega),
      storeWord_of_lt (show b + 2 < a by omega), storeWord_of_lt (show b + 3 < a by omega)]
  · simp only [loadWord, storeWord_of_le h, storeWord_of_le (show a + 4 ≤ b + 1 by omega),
      storeWord_of_le (show a + 4 ≤ b + 2 by omega), storeWord_of_le (show a + 4 ≤ b + 3 by omega)]

theorem storeWords_of_lt (hx : x < a) : storeWords mem a vs x = mem x := by
  induction vs generalizing mem a with
  | nil => rfl
  | cons v vs ih =>
    rw [storeWords, ih (by omega), storeWord_of_lt hx]

theorem storeWords_of_le (hx : a + 4 * vs.length ≤ x) : storeWords mem a vs x = mem x := by
  induction vs generalizing mem a with
  | nil => rfl
  | cons v vs ih =>
    simp only [List.length_cons] at hx
    rw [storeWords, ih (by omega), storeWord_of_le (by omega)]

/-- A load sees only the four bytes it reads. -/
theorem loadWord_congr (h : ∀ k < 4, mem' (a + k) = mem (a + k)) : loadWord mem' a = loadWord mem a := by
  simp only [loadWord]
  rw [← Nat.add_zero a, h 0 (by omega), h 1 (by omega), h 2 (by omega), h 3 (by omega)]

theorem WordsAt.nil : WordsAt mem a [] := fun _ h => absurd h (Nat.not_lt_zero _)

/-- The words survive any change outside them. -/
theorem WordsAt.frame (h : WordsAt mem a vs) (hmem : ∀ x, a ≤ x → x < a + 4 * vs.length → mem' x = mem x) :
    WordsAt mem' a vs := by
  intro i hi
  rw [← h i hi]
  exact loadWord_congr fun k hk => hmem _ (by omega) (by omega)

/-- A store just past the words adds one. -/
theorem WordsAt.push (h : WordsAt mem a vs) :
    WordsAt (storeWord mem (a + 4 * vs.length) v) a (vs ++ [v]) := by
  intro i hi
  rw [List.length_append, List.length_singleton] at hi
  rcases Nat.lt_succ_iff_lt_or_eq.mp hi with hi | rfl
  · rw [loadWord_storeWord_of_disjoint (Or.inl (by omega)), List.getElem_append_left hi]
    exact h i hi
  · simp

theorem WordsAt.cons_iff : WordsAt mem a (v :: vs) ↔ loadWord mem a = v % 2 ^ 32 ∧ WordsAt mem (a + 4) vs := by
  constructor
  · intro h
    have h₀ := h 0 (by simp)
    rw [Nat.mul_zero, Nat.add_zero, List.getElem_cons_zero] at h₀
    refine ⟨h₀, fun i hi => ?_⟩
    have := h (i + 1) (by simp; omega)
    rwa [show a + 4 * (i + 1) = a + 4 + 4 * i by omega, List.getElem_cons_succ] at this
  · rintro ⟨h₀, h⟩ i hi
    cases i with
    | zero => simpa using h₀
    | succ i =>
      rw [show a + 4 * (i + 1) = a + 4 + 4 * i by omega, List.getElem_cons_succ]
      exact h i (by simp at hi; omega)

theorem WordsAt.append_iff {ws : List Nat} :
    WordsAt mem a (vs ++ ws) ↔ WordsAt mem a vs ∧ WordsAt mem (a + 4 * vs.length) ws := by
  induction vs generalizing a with
  | nil => simp [WordsAt.nil]
  | cons v vs ih =>
    rw [List.cons_append, WordsAt.cons_iff, ih, WordsAt.cons_iff, List.length_cons,
      show a + 4 + 4 * vs.length = a + 4 * (vs.length + 1) by omega, and_assoc]

/-- The words a run of stores leaves. -/
theorem WordsAt.storeWords : WordsAt (storeWords mem a vs) a vs := by
  induction vs generalizing mem a with
  | nil => exact WordsAt.nil
  | cons v vs ih =>
    refine WordsAt.cons_iff.mpr ⟨?_, ih⟩
    rw [storeWords]
    simp only [loadWord, storeWords_of_lt (show a < a + 4 by omega),
      storeWords_of_lt (show a + 1 < a + 4 by omega), storeWords_of_lt (show a + 2 < a + 4 by omega),
      storeWords_of_lt (show a + 3 < a + 4 by omega)]
    exact loadWord_storeWord

end words

-- ============================================================ strings

/-- The first NUL among the `n` bytes from `p`, as an offset from `p`. -/
def firstZero (mem : Nat → Nat) (p : Nat) : Nat → Option Nat
  | 0 => none
  | n + 1 => if mem p = 0 then some 0 else (firstZero mem (p + 1) n).map (· + 1)

/-- The `n` bytes from `p`. -/
def bytes (mem : Nat → Nat) (p n : Nat) : List Nat := (List.range n).map fun k => mem (p + k)

/-- The NUL-terminated string `s` starts at `p`. -/
structure CStrAt (mem : Nat → Nat) (p : Nat) (s : List Nat) : Prop where
  chars : ∀ k (h : k < s.length), mem (p + k) = s[k]
  nonzero : 0 ∉ s
  nul : mem (p + s.length) = 0

/-- The strings `ss` lie one after another from `p`, each after the NUL
of the one before. -/
def Packed (mem : Nat → Nat) : Nat → List (List Nat) → Prop
  | _, [] => True
  | p, s :: ss => CStrAt mem p s ∧ Packed mem (p + s.length + 1) ss

/-- The bytes that the strings `ss` take, their NULs included. -/
def packedLen (ss : List (List Nat)) : Nat := (ss.map fun s => s.length + 1).sum

/-- Where each of the strings `ss` packed from `p` starts. -/
def packedStarts : Nat → List (List Nat) → List Nat
  | _, [] => []
  | p, s :: ss => p :: packedStarts (p + s.length + 1) ss

section strings

variable {mem mem' src : Nat → Nat} {p q n k : Nat} {s : List Nat} {ss tt : List (List Nat)}

theorem firstZero_eq_some_iff :
    firstZero mem p n = some k ↔ k < n ∧ mem (p + k) = 0 ∧ ∀ j < k, mem (p + j) ≠ 0 := by
  induction n generalizing p k with
  | zero => simp [firstZero]
  | succ n ih =>
    by_cases h0 : mem p = 0
    · simp only [firstZero, h0, if_true, Option.some.injEq]
      constructor
      · rintro rfl
        simpa using h0
      · rintro ⟨-, -, hbelow⟩
        by_contra hk
        exact hbelow 0 (by omega) (by simpa using h0)
    · simp only [firstZero, h0, if_false, Option.map_eq_some_iff, ih]
      constructor
      · rintro ⟨k, ⟨hk, hz, hbelow⟩, rfl⟩
        refine ⟨by omega, by rwa [show p + (k + 1) = p + 1 + k by omega], fun j hj => ?_⟩
        cases j with
        | zero => simpa using h0
        | succ j => rw [show p + (j + 1) = p + 1 + j by omega]; exact hbelow j (by omega)
      · rintro ⟨hk, hz, hbelow⟩
        cases k with
        | zero => exact absurd (by simpa using hz) h0
        | succ k =>
          refine ⟨k, ⟨by omega, by rwa [show p + 1 + k = p + (k + 1) by omega], fun j hj => ?_⟩, rfl⟩
          rw [show p + 1 + j = p + (j + 1) by omega]
          exact hbelow (j + 1) (by omega)

theorem firstZero_lt (h : firstZero mem p n = some k) : k < n :=
  (firstZero_eq_some_iff.mp h).1

@[simp] theorem length_bytes : (bytes mem p n).length = n := by simp [bytes]

@[simp] theorem getElem_bytes (h : k < (bytes mem p n).length) : (bytes mem p n)[k] = mem (p + k) := by
  simp [bytes]

/-- A search that finds a NUL finds the string before it. -/
theorem CStrAt.of_firstZero (h : firstZero mem p n = some k) : CStrAt mem p (bytes mem p k) := by
  obtain ⟨-, hz, hbelow⟩ := firstZero_eq_some_iff.mp h
  refine ⟨fun j hj => by simp, fun h0 => ?_, by simpa using hz⟩
  obtain ⟨j, hj, hj0⟩ := List.mem_iff_getElem.mp h0
  simp only [getElem_bytes] at hj0
  exact hbelow j (by simpa using hj) hj0

/-- A search that reaches past the string finds its length. -/
theorem CStrAt.firstZero (h : CStrAt mem p s) (hn : s.length < n) : firstZero mem p n = some s.length := by
  refine firstZero_eq_some_iff.mpr ⟨hn, h.nul, fun j hj h0 => h.nonzero ?_⟩
  have hj0 : s[j] = 0 := (h.chars j hj).symm.trans h0
  exact hj0 ▸ List.getElem_mem hj

/-- A string survives any change outside its bytes and its NUL. -/
theorem CStrAt.frame (h : CStrAt mem p s) (hmem : ∀ x, p ≤ x → x ≤ p + s.length → mem' x = mem x) :
    CStrAt mem' p s :=
  ⟨fun k hk => (hmem _ (by omega) (by omega)).trans (h.chars k hk), h.nonzero,
    (hmem _ (by omega) le_rfl).trans h.nul⟩

/-- A copy of a string's bytes and its NUL is the string at the target. -/
theorem CStrAt.copyBlock (h : CStrAt src q s) : CStrAt (copyBlock mem p src q (s.length + 1)) p s :=
  ⟨fun k hk => by rw [copyBlock_add (by omega)]; exact h.chars k hk, h.nonzero,
    by rw [copyBlock_add (by omega)]; exact h.nul⟩

/-- Two strings at one address are one string. -/
theorem CStrAt.unique {s' : List Nat} (h : CStrAt mem p s) (h' : CStrAt mem p s') : s = s' := by
  have hlen : s.length = s'.length := by
    have e₁ := h.firstZero (Nat.lt_succ_self s.length)
    rcases Nat.lt_or_ge s.length s'.length with hlt | hge
    · have e₂ := h'.firstZero (show s'.length < s.length + 1 + s'.length by omega)
      have e₁' := h.firstZero (show s.length < s.length + 1 + s'.length by omega)
      rw [e₁'] at e₂
      exact Option.some.inj e₂
    · have e₂ := h'.firstZero (show s'.length < s.length + 1 by omega)
      rw [e₁] at e₂
      exact Option.some.inj e₂
  refine List.ext_getElem hlen fun k hk hk' => ?_
  rw [← h.chars k hk, ← h'.chars k hk']

@[simp] theorem packedLen_nil : packedLen [] = 0 := rfl

@[simp] theorem packedLen_cons : packedLen (s :: ss) = s.length + 1 + packedLen ss := by
  simp [packedLen]

@[simp] theorem packedLen_append : packedLen (ss ++ tt) = packedLen ss + packedLen tt := by
  simp [packedLen]

@[simp] theorem length_packedStarts : (packedStarts p ss).length = ss.length := by
  induction ss generalizing p with
  | nil => rfl
  | cons s ss ih => simp [packedStarts, ih]

theorem packedStarts_append :
    packedStarts p (ss ++ tt) = packedStarts p ss ++ packedStarts (p + packedLen ss) tt := by
  induction ss generalizing p with
  | nil => simp [packedStarts]
  | cons s ss ih =>
    simp only [List.cons_append, packedStarts, ih, packedLen_cons]
    rw [show p + s.length + 1 + packedLen ss = p + (s.length + 1 + packedLen ss) by omega]

theorem Packed.append_iff : Packed mem p (ss ++ tt) ↔ Packed mem p ss ∧ Packed mem (p + packedLen ss) tt := by
  induction ss generalizing p with
  | nil => simp [Packed]
  | cons s ss ih =>
    simp only [List.cons_append, Packed, ih, packedLen_cons, and_assoc]
    rw [show p + s.length + 1 + packedLen ss = p + (s.length + 1 + packedLen ss) by omega]

/-- The strings survive any change outside the bytes they take. -/
theorem Packed.frame (h : Packed mem p ss) (hmem : ∀ x, p ≤ x → x < p + packedLen ss → mem' x = mem x) :
    Packed mem' p ss := by
  induction ss generalizing p with
  | nil => trivial
  | cons s ss ih =>
    simp only [packedLen_cons] at hmem
    exact ⟨h.1.frame fun x h₁ h₂ => hmem x h₁ (by omega),
      ih h.2 fun x h₁ h₂ => hmem x (by omega) (by omega)⟩

/-- The `i`th string of a packed run starts at the `i`th start. -/
theorem Packed.getElem {i : Nat} (h : Packed mem p ss) (hi : i < ss.length)
    (hi' : i < (packedStarts p ss).length) : CStrAt mem (packedStarts p ss)[i] ss[i] := by
  induction ss generalizing p i with
  | nil => exact absurd hi (Nat.not_lt_zero _)
  | cons s ss ih =>
    cases i with
    | zero => exact h.1
    | succ i => exact ih h.2 (by simpa using hi) (by simpa using hi)

/-- The starts of a packed run lie within it. -/
theorem packedStarts_bounds {i : Nat} (hi : i < ss.length) (hi' : i < (packedStarts p ss).length) :
    p ≤ (packedStarts p ss)[i] ∧ (packedStarts p ss)[i] + ss[i].length < p + packedLen ss := by
  induction ss generalizing p i with
  | nil => exact absurd hi (Nat.not_lt_zero _)
  | cons s ss ih =>
    cases i with
    | zero => simp [packedStarts]; omega
    | succ i =>
      have := @ih (p + s.length + 1) i (by simpa using hi) (by simpa using hi)
      simp only [packedStarts, List.getElem_cons_succ, packedLen_cons] at this ⊢
      omega

end strings
