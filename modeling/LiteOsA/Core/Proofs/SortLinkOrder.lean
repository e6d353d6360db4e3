/-
The sort links stay sorted, counted and flagged.

`LinkOk` is the invariant: each link is in non-decreasing response-time
order with no node twice, `nodeNum` is its length, a node is linked
iff its time is valid, and a linked node is on the link of its own
`cpuid` and of one type only. The callers keep their side
(`CallOk`): a node is added only while it is linked nowhere and at a
time that is not the invalid one, and deleted with its own link's
type. An add of a linked node would rewrite the time of a node in the
middle of a sorted link, and an add whose `UINT64` sum comes to
`OS_SORT_LINK_INVALID_TIME` links a node that reads as unlinked
(`sortlink_add_invalid_time`).

Each edit has a membership lemma (`mem_add`, `mem_deleteNode`) and a
lemma that it keeps `LinkOk`; a step is one of them. A scan's
critical section takes off the first node when it is due, and
finds the scan over only when the first node, and so every node,
is later than the scan's time (`scanStep_some`, `scanStep_none`).
-/
import LiteOsA.Core.SortLink

namespace LiteOsA.SortLink

variable {ν : Type}

-- ============================================================ insertion

section insert

variable (rt : ν → Nat) (x : ν)

theorem addScan_perm : ∀ l : List ν, (addScan rt x l).Perm (x :: l)
  | [] => .refl _
  | y :: rest => by
    unfold addScan
    split
    · exact .refl _
    · exact ((addScan_perm rest).cons y).trans (List.Perm.swap x y rest)

/-- The backward scan keeps a list that is in non-increasing order so. -/
theorem addScan_pairwise : ∀ l : List ν, l.Pairwise (fun a b => rt b ≤ rt a) →
    (addScan rt x l).Pairwise (fun a b => rt b ≤ rt a)
  | [], _ => List.pairwise_singleton _ _
  | y :: rest, h => by
    rw [List.pairwise_cons] at h
    unfold addScan
    split
    · -- `x` goes in front of `y`, due no later than it and so than the rest
      rename_i hle
      refine List.Pairwise.cons (fun z hz => ?_) (List.Pairwise.cons h.1 h.2)
      rcases List.mem_cons.1 hz with rfl | hz
      · exact hle
      · exact (h.1 z hz).trans hle
    · refine List.Pairwise.cons (fun z hz => ?_) (addScan_pairwise rest h.2)
      rcases List.mem_cons.1 ((addScan_perm rt x rest).subset hz) with rfl | hz
      · omega
      · exact h.1 z hz

theorem OsAddNode2SortLink_perm (h : SortLinkAttribute ν) :
    (OsAddNode2SortLink rt h x).sortLink.Perm (x :: h.sortLink) := by
  unfold OsAddNode2SortLink
  split
  · rename_i hl
    rw [hl]
  · split
    · exact .refl _
    · -- the reversed link with `x` put in, reversed back
      have hrev := List.reverse_perm (addScan rt x h.sortLink.reverse)
      exact hrev.trans ((addScan_perm rt x _).trans ((List.reverse_perm _).cons x))

theorem OsAddNode2SortLink_nodeNum (h : SortLinkAttribute ν) :
    (OsAddNode2SortLink rt h x).nodeNum = h.nodeNum + 1 := by
  unfold OsAddNode2SortLink
  split
  · rfl
  · split <;> rfl

/-- An add keeps a link sorted: in front when the first node is due no
earlier, else after the last node due no later. -/
theorem OsAddNode2SortLink_sorted (h : SortLinkAttribute ν)
    (hs : h.sortLink.Pairwise fun a b => rt a ≤ rt b) :
    (OsAddNode2SortLink rt h x).sortLink.Pairwise fun a b => rt a ≤ rt b := by
  unfold OsAddNode2SortLink
  split
  · exact List.pairwise_singleton _ _
  · rename_i first rest hl
    split
    · rename_i hge
      rw [hl] at hs ⊢
      refine List.Pairwise.cons (fun z hz => ?_) hs
      rcases List.mem_cons.1 hz with rfl | hz
      · exact hge
      · exact hge.trans (List.rel_of_pairwise_cons hs hz)
    · -- the scan runs over the reversed link, which is in non-increasing order
      rw [List.pairwise_reverse]
      apply addScan_pairwise
      rwa [List.pairwise_reverse]

end insert

-- ============================================================ the invariant

/-- `x` is on some CPU's link. -/
def Linked (s : SortLinkSys ν) (x : ν) : Prop := ∃ c ty, x ∈ (s.link c ty).sortLink

/-- The sort links' invariant. -/
structure LinkOk (s : SortLinkSys ν) : Prop where
  sorted : ∀ c ty, (s.link c ty).sortLink.Pairwise fun a b =>
    (s.node a).responseTime ≤ (s.node b).responseTime
  nodup : ∀ c ty, (s.link c ty).sortLink.Nodup
  count : ∀ c ty, (s.link c ty).nodeNum = (s.link c ty).sortLink.length
  linked : ∀ x, Linked s x ↔ (s.node x).responseTime ≠ OS_SORT_LINK_INVALID_TIME
  cpuid : ∀ c ty x, x ∈ (s.link c ty).sortLink → (s.node x).cpuid = c
  type : ∀ c ty ty' x, x ∈ (s.link c ty).sortLink → x ∈ (s.link c ty').sortLink → ty = ty'

variable {s : SortLinkSys ν}

/-- A list stays sorted when the times of nodes not on it change. -/
theorem sorted_congr {l : List ν} {rt rt' : ν → Nat} (hs : l.Pairwise fun a b => rt a ≤ rt b)
    (h : ∀ y ∈ l, rt' y = rt y) : l.Pairwise fun a b => rt' a ≤ rt' b :=
  hs.imp_of_mem fun ha hb hab => by rw [h _ ha, h _ hb]; exact hab

/-- A linked node is on its own CPU's link of one type only. -/
theorem LinkOk.mem_unique (h : LinkOk s) {x : ν} {c c' : Nat} {ty ty' : SortLinkType}
    (hx : x ∈ (s.link c ty).sortLink) (hx' : x ∈ (s.link c' ty').sortLink) : c = c' ∧ ty = ty' := by
  have hc : c = c' := (h.cpuid c ty x hx).symm.trans (h.cpuid c' ty' x hx')
  subst hc
  exact ⟨rfl, h.type c ty ty' x hx hx'⟩

variable [DecidableEq ν]

-- ============================================================ deletion

/-- What `OsDeleteNodeSortLink` leaves on each link. -/
theorem mem_deleteNode (h : LinkOk s) (cpu : Nat) (type : SortLinkType) (x y : ν) (c : Nat)
    (ty : SortLinkType) :
    y ∈ ((OsDeleteNodeSortLink s cpu type x).link c ty).sortLink ↔
      y ∈ (s.link c ty).sortLink ∧ ¬(c = cpu ∧ ty = type ∧ y = x) := by
  simp only [OsDeleteNodeSortLink, setNode_link, setLink_link]
  split
  · rename_i hct
    obtain ⟨rfl, rfl⟩ := hct
    rw [(h.nodup c ty).mem_erase_iff]
    simp only [true_and]
    exact ⟨fun ⟨hne, hm⟩ => ⟨hm, hne⟩, fun ⟨hm, hne⟩ => ⟨hne, hm⟩⟩
  · rename_i hct
    exact ⟨fun hm => ⟨hm, fun ⟨hc, ht, _⟩ => hct ⟨hc, ht⟩⟩, fun hm => hm.1⟩

theorem deleteNode_node (cpu : Nat) (type : SortLinkType) (x y : ν) :
    (OsDeleteNodeSortLink s cpu type x).node y =
      if y = x then { s.node x with responseTime := OS_SORT_LINK_INVALID_TIME } else s.node y := by
  simp [OsDeleteNodeSortLink, Function.update_apply]

/-- Deleting a node of `cpu`'s link of `type` keeps the invariant. -/
theorem LinkOk.deleteNode (h : LinkOk s) {cpu : Nat} {type : SortLinkType} {x : ν}
    (hx : x ∈ (s.link cpu type).sortLink) : LinkOk (OsDeleteNodeSortLink s cpu type x) := by
  -- the times change only at `x`, which is on no link afterwards
  have hrt : ∀ c ty y, y ∈ ((OsDeleteNodeSortLink s cpu type x).link c ty).sortLink →
      (OsDeleteNodeSortLink s cpu type x).node y = s.node y := by
    intro c ty y hy
    rw [deleteNode_node, if_neg]
    rintro rfl
    obtain ⟨hy, hne⟩ := (mem_deleteNode h cpu type y y c ty).1 hy
    obtain ⟨rfl, rfl⟩ := h.mem_unique hx hy
    exact hne ⟨rfl, rfl, rfl⟩
  refine ⟨fun c ty => ?_, fun c ty => ?_, fun c ty => ?_, fun y => ?_, fun c ty y hy => ?_,
    fun c ty ty' y hy hy' => ?_⟩
  · apply sorted_congr _ fun y hy => by rw [hrt c ty y hy]
    simp only [OsDeleteNodeSortLink, setNode_link, setLink_link]
    split
    · exact (h.sorted cpu type).sublist (List.erase_sublist)
    · exact h.sorted c ty
  · simp only [OsDeleteNodeSortLink, setNode_link, setLink_link]
    split
    · exact (h.nodup cpu type).erase x
    · exact h.nodup c ty
  · simp only [OsDeleteNodeSortLink, setNode_link, setLink_link]
    split
    · rename_i hct
      obtain ⟨rfl, rfl⟩ := hct
      rw [List.length_erase_of_mem hx, h.count]
    · exact h.count c ty
  · by_cases hyx : y = x
    · -- `x` is off every link and its time is invalid
      subst hyx
      simp only [deleteNode_node, if_pos, ne_eq, not_true_eq_false, iff_false]
      rintro ⟨c, ty, hy⟩
      obtain ⟨hy, hne⟩ := (mem_deleteNode h cpu type y y c ty).1 hy
      obtain ⟨rfl, rfl⟩ := h.mem_unique hx hy
      exact hne ⟨rfl, rfl, rfl⟩
    · rw [deleteNode_node, if_neg hyx, ← h.linked y]
      simp only [Linked, mem_deleteNode h, hyx, and_false, not_false_eq_true, and_true]
  · rw [hrt c ty y hy]
    exact h.cpuid c ty y ((mem_deleteNode h cpu type x y c ty).1 hy).1
  · exact h.type c ty ty' y ((mem_deleteNode h cpu type x y c ty).1 hy).1
      ((mem_deleteNode h cpu type x y c ty').1 hy').1

/-- `OsDeleteSortLink` with the node's own type keeps the invariant. -/
theorem LinkOk.delete (h : LinkOk s) {x : ν} {type : SortLinkType}
    (htype : ∀ c ty, x ∈ (s.link c ty).sortLink → ty = type) :
    LinkOk (OsDeleteSortLink s x type) := by
  unfold OsDeleteSortLink
  split
  · -- a valid time: `x` is on its own CPU's link of `type`
    rename_i hvalid
    obtain ⟨c, ty, hx⟩ := (h.linked x).2 hvalid
    have hc := h.cpuid c ty x hx
    have ht := htype c ty hx
    subst hc ht
    exact h.deleteNode hx
  · exact h

-- ============================================================ adding

section add

variable (N C : Nat) (x : ν) (startTime waitTicks : Nat) (type : SortLinkType) (active : Bool)
  (cur : Nat)

/-- The CPU `OsAdd2SortLink` picks. -/
theorem OsAdd2SortLink_node (y : ν) :
    (OsAdd2SortLink N C s x startTime waitTicks type active cur).node y =
      if y = x then ⟨(startTime + waitTicks * C) % 2 ^ 64,
        if active then OsFindIdleCpu s N else cur⟩ else s.node y := by
  simp only [OsAdd2SortLink, setNode_node, setLink_node, Function.update_apply]
  split <;> simp_all

theorem OsAdd2SortLink_link (c : Nat) (ty : SortLinkType) :
    (OsAdd2SortLink N C s x startTime waitTicks type active cur).link c ty =
      if c = (if active then OsFindIdleCpu s N else cur) ∧ ty = type then
        OsAddNode2SortLink
          (fun y => if y = x then (startTime + waitTicks * C) % 2 ^ 64 else (s.node y).responseTime)
          (s.link (if active then OsFindIdleCpu s N else cur) type) x
      else s.link c ty := by
  have hrt : (fun y => (Function.update s.node x
      { s.node x with responseTime := (startTime + waitTicks * C) % 2 ^ 64 } y).responseTime) =
      fun y => if y = x then (startTime + waitTicks * C) % 2 ^ 64 else (s.node y).responseTime := by
    funext y
    by_cases hy : y = x <;> simp [hy]
  simp only [OsAdd2SortLink, setNode_link, setLink_link, setNode_node, hrt]

/-- What an add leaves on each link: the old nodes, and `x` on the
link it picked. -/
theorem mem_add (y : ν) (c : Nat) (ty : SortLinkType) :
    y ∈ ((OsAdd2SortLink N C s x startTime waitTicks type active cur).link c ty).sortLink ↔
      (c = (if active then OsFindIdleCpu s N else cur) ∧ ty = type ∧ y = x) ∨
        y ∈ (s.link c ty).sortLink := by
  rw [OsAdd2SortLink_link]
  generalize (if active then OsFindIdleCpu s N else cur) = idle
  split
  · rename_i hct
    obtain ⟨rfl, rfl⟩ := hct
    rw [(OsAddNode2SortLink_perm _ x _).mem_iff, List.mem_cons]
    simp
  · rename_i hct
    exact ⟨.inr, fun hy => hy.resolve_left fun ⟨hc, ht, _⟩ => hct ⟨hc, ht⟩⟩

/-- An add of a node linked nowhere, at a valid time, keeps the
invariant. -/
theorem LinkOk.add (h : LinkOk s) (hfresh : ¬Linked s x)
    (hvalid : (startTime + waitTicks * C) % 2 ^ 64 ≠ OS_SORT_LINK_INVALID_TIME) :
    LinkOk (OsAdd2SortLink N C s x startTime waitTicks type active cur) := by
  -- the node's new time, and the CPU it goes to
  generalize hr : (startTime + waitTicks * C) % 2 ^ 64 = r at hvalid
  generalize hi : (if active then OsFindIdleCpu s N else cur) = idle
  have hnode : ∀ y, (OsAdd2SortLink N C s x startTime waitTicks type active cur).node y = _ :=
    OsAdd2SortLink_node N C x startTime waitTicks type active cur
  have hmem : ∀ y c ty,
      y ∈ ((OsAdd2SortLink N C s x startTime waitTicks type active cur).link c ty).sortLink ↔ _ :=
    mem_add N C x startTime waitTicks type active cur
  rw [hr, hi] at hnode
  rw [hi] at hmem
  have hrt : ∀ y, ((OsAdd2SortLink N C s x startTime waitTicks type active cur).node y).responseTime =
      if y = x then r else (s.node y).responseTime := fun y => by
    rw [hnode]
    split <;> rfl
  -- off `x`, times and links read as before
  have hold : ∀ c ty y, y ∈ (s.link c ty).sortLink → y ≠ x := fun c ty y hy e =>
    hfresh ⟨c, ty, e ▸ hy⟩
  refine ⟨fun c ty => ?_, fun c ty => ?_, fun c ty => ?_, fun y => ?_, fun c ty y hy => ?_,
    fun c ty ty' y hy hy' => ?_⟩
  · simp only [hrt]
    rw [OsAdd2SortLink_link, hr, hi]
    split
    · rename_i hct
      obtain ⟨rfl, rfl⟩ := hct
      apply OsAddNode2SortLink_sorted
      exact sorted_congr (h.sorted c ty) fun y hy => if_neg (hold c ty y hy)
    · refine sorted_congr (h.sorted c ty) fun y hy => ?_
      simp only [if_neg (hold c ty y hy)]
  · rw [OsAdd2SortLink_link, hi]
    split
    · rename_i hct
      obtain ⟨rfl, rfl⟩ := hct
      exact (OsAddNode2SortLink_perm _ x _).nodup_iff.2
        (List.nodup_cons.2 ⟨fun hx => hfresh ⟨_, _, hx⟩, h.nodup c ty⟩)
    · exact h.nodup c ty
  · rw [OsAdd2SortLink_link, hi]
    split
    · rw [OsAddNode2SortLink_nodeNum, (OsAddNode2SortLink_perm _ x _).length_eq,
        List.length_cons, h.count]
    · exact h.count c ty
  · by_cases hyx : y = x
    · subst hyx
      simp only [hnode, if_pos, ne_eq, hvalid, not_false_eq_true, iff_true]
      exact ⟨idle, type, (hmem y idle type).2 (.inl ⟨rfl, rfl, rfl⟩)⟩
    · rw [hnode, if_neg hyx, ← h.linked y]
      simp only [Linked, hmem, hyx, and_false, false_or]
  · rw [hnode]
    rcases (hmem y c ty).1 hy with ⟨rfl, -, rfl⟩ | hy
    · rw [if_pos rfl]
    · rw [if_neg (hold c ty y hy)]
      exact h.cpuid c ty y hy
  · -- `x` is on the one link it was put on, the other nodes on their old links
    by_cases hyx : y = x
    · subst hyx
      rcases (hmem y c ty).1 hy with ⟨-, h₁, -⟩ | h₁
      · rcases (hmem y c ty').1 hy' with ⟨-, h₂, -⟩ | h₂
        · exact h₁.trans h₂.symm
        · exact absurd rfl (hold c ty' y h₂)
      · exact absurd rfl (hold c ty y h₁)
    · exact h.type c ty ty' y (((hmem y c ty).1 hy).resolve_left fun ⟨_, _, e⟩ => hyx e)
        (((hmem y c ty').1 hy').resolve_left fun ⟨_, _, e⟩ => hyx e)

end add

-- ============================================================ scans

/-- A critical section that takes a node off takes off the first one,
which is due, and leaves the rest in order. -/
theorem scanStep_some {cpu : Nat} {type : SortLinkType} {t : Nat} {x : ν}
    (hx : (scanStep s cpu type t).1 = some x) :
    (s.link cpu type).sortLink = x :: ((scanStep s cpu type t).2.link cpu type).sortLink ∧
      (s.node x).responseTime ≤ t := by
  unfold scanStep at hx ⊢
  split at hx
  · cases hx
  · rename_i y rest hl
    by_cases hdue : (s.node y).responseTime ≤ t
    · rw [if_pos hdue] at hx ⊢
      cases hx
      refine ⟨?_, hdue⟩
      simp [OsDeleteNodeSortLink, hl]
    · rw [if_neg hdue] at hx
      cases hx

/-- A critical section that takes nothing off leaves the link as it was,
and in a sorted link every node is then later than the scan's time. -/
theorem scanStep_none (h : LinkOk s) {cpu : Nat} {type : SortLinkType} {t : Nat}
    (hx : (scanStep s cpu type t).1 = none) :
    (scanStep s cpu type t).2 = s ∧
      ∀ y ∈ (s.link cpu type).sortLink, t < (s.node y).responseTime := by
  have hs := h.sorted cpu type
  unfold scanStep at hx ⊢
  split at hx
  · rename_i hl
    simp [hl]
  · rename_i y rest hl
    by_cases hdue : (s.node y).responseTime ≤ t
    · rw [if_pos hdue] at hx
      cases hx
    · -- the first node is not due, so no later node is
      rw [if_neg hdue]
      refine ⟨rfl, fun z hz => ?_⟩
      rw [hl] at hs hz
      rcases List.mem_cons.1 hz with rfl | hz
      · omega
      · have := List.rel_of_pairwise_cons hs hz
        omega

theorem LinkOk.afterScan (h : LinkOk s) (cpu : Nat) (type : SortLinkType) (t : Nat) :
    LinkOk (scanStep s cpu type t).2 := by
  cases hx : (scanStep s cpu type t).1 with
  | none => rw [(scanStep_none h hx).1]; exact h
  | some x =>
    have hfirst := (scanStep_some hx).1
    unfold scanStep at hx ⊢
    split at hx
    · cases hx
    · rename_i y rest hl
      split at hx
      · cases hx
        rw [if_pos ‹_›]
        exact h.deleteNode (by rw [hl]; exact List.mem_cons_self)
      · cases hx

-- ============================================================ runs

/-- The callers' side: a node is added only while it is linked nowhere,
at a time that is not the invalid one, and deleted with its own type. -/
def CallOk (C : Nat) (s : SortSys ν) : Event ν → Prop
  | .add x startTime waitTicks _ _ _ =>
    ¬Linked s.sys x ∧ (startTime + waitTicks * C) % 2 ^ 64 ≠ OS_SORT_LINK_INVALID_TIME
  | .delete x type => ∀ c ty, x ∈ (s.sys.link c ty).sortLink → ty = type
  | _ => True

/-- `e` is a critical section of a scan of `cpu`'s link of `type` at
time `t`, which took `removed` off. -/
def ScanStep (s : SortSys ν) (cpu : Nat) (type : SortLinkType) (t : Nat) (removed : Option ν) :
    Event ν → Prop
  | .scanFirst c ty t' r => c = cpu ∧ ty = type ∧ t' = t ∧ r = removed
  | .scanNext c ty r => c = cpu ∧ ty = type ∧ s.scan cpu type = some t ∧ r = removed
  | _ => False

omit [DecidableEq ν] in
theorem LinkOk.initial {s : SortSys ν} (h₀ : Init s) : LinkOk s.sys := by
  obtain ⟨hlink, hnode, -⟩ := h₀
  have hnil : ∀ c ty, (s.sys.link c ty).sortLink = [] := fun c ty => by rw [hlink]; rfl
  refine ⟨fun c ty => ?_, fun c ty => ?_, fun c ty => ?_, fun y => ?_, fun c ty y hy => ?_,
    fun c ty _ y hy _ => ?_⟩
  · rw [hnil]
    exact List.Pairwise.nil
  · rw [hnil]
    exact List.nodup_nil
  · rw [hlink]
    rfl
  · simp [Linked, hnil, hnode]
  · simp [hnil] at hy
  · simp [hnil] at hy

variable {N C : Nat}

/-- A step by callers that keep their side keeps the invariant. -/
theorem LinkOk.step {s s' : SortSys ν} {e : Event ν} (h : LinkOk s.sys) (hs : Step N C s e s')
    (hok : CallOk C s e) : LinkOk s'.sys := by
  cases hs with
  | add x startTime waitTicks type active cur =>
    exact h.add N C x startTime waitTicks type active cur hok.1 hok.2
  | delete x type => exact h.delete hok
  | scanFirst cpu type currTime _ => exact h.afterScan cpu type currTime
  | scanNext cpu type _ => exact h.afterScan cpu type _

/-- What a scan's critical section does, from a state where the links
are sorted. -/
theorem LinkOk.scan {s s' : SortSys ν} {e : Event ν} (h : LinkOk s.sys) (hs : Step N C s e s')
    {cpu : Nat} {type : SortLinkType} {t : Nat} {removed : Option ν}
    (he : ScanStep s cpu type t removed e) :
    (∀ x, removed = some x → (s.sys.link cpu type).sortLink =
        x :: (s'.sys.link cpu type).sortLink ∧ (s.sys.node x).responseTime ≤ t) ∧
      (removed = none → ∀ y ∈ (s'.sys.link cpu type).sortLink, t < (s'.sys.node y).responseTime) := by
  -- both kinds of critical section are `scanStep` at the scan's time
  have key : s'.sys = (SortLink.scanStep s.sys cpu type t).2 ∧
      removed = (SortLink.scanStep s.sys cpu type t).1 := by
    cases hs with
    | scanFirst c ty currTime _ =>
      obtain ⟨rfl, rfl, rfl, rfl⟩ := he
      exact ⟨rfl, rfl⟩
    | scanNext c ty hscan =>
      obtain ⟨rfl, rfl, ht, rfl⟩ := he
      rw [hscan] at ht
      cases ht
      exact ⟨rfl, rfl⟩
    | add => exact he.elim
    | delete => exact he.elim
  obtain ⟨hs', hr⟩ := key
  refine ⟨fun x hx => ?_, fun hx => ?_⟩
  · rw [hs']
    exact scanStep_some (hr ▸ hx)
  · obtain ⟨hsame, hlate⟩ := scanStep_none h (hr ▸ hx)
    rw [hs', hsame]
    exact hlate

/-- The sort links' law, for callers that keep their side: in every
state a run reaches, every CPU's links are in non-decreasing
response-time order with `nodeNum` their length, and a node is linked
iff its time is valid; and from there a scan's critical section that
deletes takes off the first node, which is due at the scan's time, and
leaves the rest in order, while one that finds nothing to delete ends
the scan with every node left later than its time. -/
theorem sortlink_ordered {s₀ s : SortSys ν} {evs : List (Event ν)} (h₀ : Init s₀)
    (hrun : Run (fun s e s' => Step N C s e s' ∧ CallOk C s e) s₀ evs s) :
    (∀ c ty, ((s.sys.link c ty).sortLink.Pairwise fun a b =>
        (s.sys.node a).responseTime ≤ (s.sys.node b).responseTime) ∧
      (s.sys.link c ty).nodeNum = (s.sys.link c ty).sortLink.length) ∧
    (∀ x, (∃ c ty, x ∈ (s.sys.link c ty).sortLink) ↔
      (s.sys.node x).responseTime ≠ OS_SORT_LINK_INVALID_TIME) ∧
    ∀ e s' cpu type t removed, Step N C s e s' → ScanStep s cpu type t removed e →
      (∀ x, removed = some x → (s.sys.link cpu type).sortLink =
          x :: (s'.sys.link cpu type).sortLink ∧ (s.sys.node x).responseTime ≤ t) ∧
        (removed = none →
          ∀ y ∈ (s'.sys.link cpu type).sortLink, t < (s'.sys.node y).responseTime) := by
  have h : LinkOk s.sys :=
    hrun.inv (fun s => LinkOk s.sys) (fun _ _ _ hp hs => hp.step hs.1 hs.2) (LinkOk.initial h₀)
  exact ⟨fun c ty => ⟨h.sorted c ty, h.count c ty⟩, h.linked,
    fun _ _ _ _ _ _ hs he => h.scan hs he⟩

/-- Nodes 0 and 1 are added to CPU 0's task link, due at 5 and at 3;
a scan at 4 takes node 1 off: node 0 is left alone on the link, counted. -/
theorem sortlink_ordered_scan :
    let s₀ : SortSys (Fin 2) :=
      ⟨⟨fun _ => ⟨OS_SORT_LINK_INVALID_TIME, 0⟩, fun _ _ => OsSortLinkInit⟩, fun _ _ => none⟩
    let evs : List (Event (Fin 2)) :=
      [.add 0 5 0 .OS_SORT_LINK_TASK false 0, .add 1 3 0 .OS_SORT_LINK_TASK false 0,
        .scanFirst 0 .OS_SORT_LINK_TASK 4 (some 1)]
    ∃ s, Init s₀ ∧ Run (fun s e s' => Step 2 1 s e s' ∧ CallOk 1 s e) s₀ evs s ∧
      (s.sys.link 0 .OS_SORT_LINK_TASK).sortLink = [0] ∧
      (s.sys.link 0 .OS_SORT_LINK_TASK).nodeNum = 1 ∧
      (s.sys.node 1).responseTime = OS_SORT_LINK_INVALID_TIME := by
  intro s₀ evs
  have h₀ : Init s₀ := ⟨fun _ _ => rfl, fun _ => rfl, fun _ _ => rfl⟩
  have hempty : ∀ x, ¬Linked s₀.sys x := fun x ⟨c, ty, hx⟩ => by
    rw [show s₀.sys.link c ty = OsSortLinkInit from rfl] at hx
    exact List.not_mem_nil hx
  let s₁ : SortSys (Fin 2) :=
    ⟨OsAdd2SortLink 2 1 s₀.sys 0 5 0 .OS_SORT_LINK_TASK false 0, s₀.scan⟩
  have r₁ : Run (fun s e s' => Step 2 1 s e s' ∧ CallOk 1 s e) s₀ (evs.take 1) s₁ :=
    Run.nil.snoc ⟨Step.add s₀ 0 5 0 .OS_SORT_LINK_TASK false 0, hempty 0, by decide⟩
  -- node 1 is not on the link node 0 was put on
  have hfresh : ¬Linked s₁.sys 1 := fun ⟨c, ty, hx⟩ => by
    rcases (mem_add 2 1 0 5 0 .OS_SORT_LINK_TASK false 0 1 c ty).1 hx with ⟨-, -, h⟩ | hx
    · exact absurd h (by decide)
    · exact hempty 1 ⟨c, ty, hx⟩
  have r₂ : Run _ s₀ (evs.take 2) _ :=
    r₁.snoc ⟨Step.add s₁ 1 3 0 .OS_SORT_LINK_TASK false 0, hfresh, by decide⟩
  have r₃ : Run _ s₀ evs _ :=
    r₂.snoc ⟨Step.scanFirst_ret 2 1 rfl (by decide), trivial⟩
  obtain ⟨hlinks, -, -⟩ := sortlink_ordered h₀ r₃
  refine ⟨_, h₀, r₃, by decide, ?_, by decide⟩
  rw [(hlinks 0 .OS_SORT_LINK_TASK).2]
  decide

/-- Without the callers' side the flag is wrong: an add whose `UINT64`
sum comes to `OS_SORT_LINK_INVALID_TIME` links the node, and
`OsDeleteSortLink` then takes it for unlinked and leaves it there. -/
theorem sortlink_add_invalid_time :
    let s₀ : SortSys (Fin 1) :=
      ⟨⟨fun _ => ⟨OS_SORT_LINK_INVALID_TIME, 0⟩, fun _ _ => OsSortLinkInit⟩, fun _ _ => none⟩
    ∃ s, Init s₀ ∧
      Run (Step 1 1) s₀
        [.add 0 (2 ^ 64 - 1) 0 .OS_SORT_LINK_TASK false 0, .delete 0 .OS_SORT_LINK_TASK] s ∧
      0 ∈ (s.sys.link 0 .OS_SORT_LINK_TASK).sortLink ∧
      (s.sys.node 0).responseTime = OS_SORT_LINK_INVALID_TIME := by
  intro s₀
  have r₀ : Run (Step 1 1) s₀ [] s₀ := .nil
  have r₁ := r₀.snoc (Step.add s₀ 0 (2 ^ 64 - 1) 0 .OS_SORT_LINK_TASK false 0)
  have r₂ := r₁.snoc (Step.delete _ 0 .OS_SORT_LINK_TASK)
  exact ⟨_, ⟨fun _ _ => rfl, fun _ => rfl, fun _ _ => rfl⟩, r₂, by decide, by decide⟩

end LiteOsA.SortLink
