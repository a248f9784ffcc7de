import Mathlib.Data.List.GetD
import RoundRobin.Proofs.PageAccounting

/-!
# What is in the pages that a pool hands out

A page goes out clean, whatever was in it before, and no two pages that are held are the same. From then
on each of its bytes is what was last put there, so the pattern is gone exactly when one of the bytes
under it was overwritten by another.
-/

namespace RoundRobin

-- Powers here are those of natural numbers themselves, whatever other powers are in scope.
attribute [local instance (high)] instPowNat

namespace Page

/-! ## The pattern as a word -/

/-- Numbers of as many bytes differ when their bytes do. -/
theorem littleEndian_inj {xs ys : List UInt8} (hlength : xs.length = ys.length)
    (h : littleEndian xs = littleEndian ys) : xs = ys := by
  induction xs generalizing ys with
  | nil => exact (List.length_eq_zero_iff.mp hlength.symm).symm
  | cons x xs ih =>
    cases ys with
    | nil => simp at hlength
    | cons y ys =>
      have hsplit : x.toNat + 256 * littleEndian xs = y.toNat + 256 * littleEndian ys := h
      have hx := x.toNat_lt
      have hy := y.toNat_lt
      have hfirst : x.toNat = y.toNat := by omega
      have hrest : littleEndian xs = littleEndian ys := by omega
      rw [UInt8.toNat_inj.mp hfirst, ih (by simpa using hlength) hrest]

/-- The bytes at the lowest addresses, as many as the pattern has. -/
def front (p : Page) : List UInt8 := (List.range canaryBytes.length).map p.read

theorem checkCanary_iff_front (p : Page) : p.checkCanary = true ↔ p.front = canaryBytes := by
  unfold checkCanary front
  exact beq_iff_eq

theorem checkCanary_iff_canary (p : Page) : p.checkCanary = true ↔ littleEndian p.front = canary := by
  rw [checkCanary_iff_front]
  refine ⟨fun h => by rw [h, canary], fun h => littleEndian_inj ?_ h⟩
  simp [front]

/-- The byte that a page has at an offset when it goes out. -/
def cleanByte (i : Nat) : UInt8 := canaryBytes.getD i 0

theorem checkCanary_iff_bytes (p : Page) :
    p.checkCanary = true ↔ ∀ i < canaryBytes.length, p.read i = cleanByte i := by
  rw [checkCanary_iff_front]
  constructor
  · intro h i hi
    have hread : p.front[i]? = some (p.read i) := by simp [front, hi]
    rw [h, List.getElem?_eq_getElem hi] at hread
    rw [cleanByte, List.getD_eq_getElem _ _ hi]
    exact (Option.some.inj hread).symm
  · intro h
    refine List.ext_getElem (by simp [front]) fun i hi hi' => ?_
    have hread := h i hi'
    rw [cleanByte, List.getD_eq_getElem _ _ hi'] at hread
    simpa [front] using hread

/-- A page as it goes out: its size is that of the pool, the pattern stands at its lowest address, and
all its other bytes are zero. -/
structure Clean (pageSize : Nat) (p : Page) : Prop where
  size : p.size = pageSize
  roomy : canaryBytes.length ≤ p.size
  front : littleEndian p.front = 0xdeadbeefcafebabe
  checkCanary : p.checkCanary = true
  zero : ∀ i, canaryBytes.length ≤ i → p.read i = 0

theorem Clean.read_eq {pageSize : Nat} {p : Page} (h : Clean pageSize p) (i : Nat) :
    p.read i = cleanByte i := by
  rcases Nat.lt_or_ge i canaryBytes.length with hi | hi
  · exact p.checkCanary_iff_bytes.mp h.checkCanary i hi
  · rw [h.zero i hi, cleanByte, List.getD_eq_default _ _ hi]

/-- Zeros with the pattern put in. -/
theorem clean_installCanary {pageSize : Nat} {p : Page} (hsize : p.size = pageSize)
    (hroomy : canaryBytes.length ≤ pageSize) (hzero : ∀ i, p.read i = 0) :
    Clean pageSize p.installCanary where
  size := hsize
  roomy := hsize ▸ hroomy
  front := p.installCanary.checkCanary_iff_canary.mp p.checkCanary_installCanary
  checkCanary := p.checkCanary_installCanary
  zero i hi := by rw [read_installCanary, hzero i, List.getD_eq_default _ _ hi]

/-- Pages of one size lie apart when they are told apart. -/
theorem disjoint_of_number_ne {p q : Page} (hsize : p.size = q.size) (hne : p.number ≠ q.number) :
    p.base + p.size ≤ q.base ∨ q.base + q.size ≤ p.base := by
  have hbefore {p q : Page} (hsize : p.size = q.size) (hlt : p.number < q.number) :
      p.base + p.size ≤ q.base := by
    calc p.base + p.size
        ≤ (p.number + 1) * max minAlignment p.size + max minAlignment p.size :=
          Nat.add_le_add_left (Nat.le_max_right _ _) _
      _ = (p.number + 1 + 1) * max minAlignment p.size := (Nat.succ_mul _ _).symm
      _ ≤ (q.number + 1) * max minAlignment p.size := Nat.mul_le_mul_right _ (by omega)
      _ = q.base := by rw [base, hsize]
  rcases Nat.lt_or_gt_of_ne hne with hlt | hgt
  · exact .inl (hbefore hsize hlt)
  · exact .inr (hbefore hsize.symm hgt)

end Page

namespace Session

variable {b b' b₁ b₂ : PoolBench} {p q : Page} {slot i : Nat}

namespace PoolCommand

/-! ## What a command does to the page in a slot -/

/-- Whether a command takes the page out of a slot. -/
def empties (slot : Nat) : PoolCommand → Bool
  | free s | drop s => s == slot
  | _ => false

/-- The byte that a command puts at an offset of the page in a slot. -/
def put? (slot offset : Nat) : PoolCommand → Option UInt8
  | write s o value => if s = slot ∧ o = offset then some value else none
  | install s => if s = slot then Page.canaryBytes[offset]? else none
  | _ => none

/-- The page in a slot after a command. -/
def leaves (slot : Nat) (p : Page) : PoolCommand → Option Page
  | free s | drop s => if s = slot then none else some p
  | write s offset value => if s = slot then some (p.write offset value) else some p
  | install s => if s = slot then some p.installCanary else some p
  | _ => some p

/-- A command either takes the page out of its slot, or leaves it there with the bytes that it puts. -/
theorem leaves_eq_none_iff {c : PoolCommand} : c.leaves slot p = none ↔ c.empties slot = true := by
  cases c with
  | write s _ _ | install s =>
    by_cases hs : s = slot <;> simp [leaves, empties, hs]
  | _ => simp [leaves, empties]

theorem read_of_leaves {c : PoolCommand} (h : c.leaves slot p = some q) :
    q.number = p.number ∧ q.size = p.size ∧
      ∀ i, q.read i = (c.put? slot i).getD (p.read i) := by
  cases c with
  | write s offset value =>
    by_cases hs : s = slot
    · simp only [leaves, hs, if_true] at h
      cases h
      refine ⟨rfl, rfl, fun i => ?_⟩
      by_cases hi : i = offset
      · simp [put?, hs, hi, Page.read_write]
      · simp [put?, hs, hi, Ne.symm hi, Page.read_write]
    · simp only [leaves, hs, if_false] at h
      cases h
      simp [put?, hs]
  | install s =>
    by_cases hs : s = slot
    · simp only [leaves, hs, if_true] at h
      cases h
      simp [put?, hs, Page.read_installCanary]
    · simp only [leaves, hs, if_false] at h
      cases h
      simp [put?, hs]
  | free s | drop s =>
    rw [leaves] at h
    split at h
    · cases h
    · cases h
      exact ⟨rfl, rfl, fun _ => rfl⟩
  | _ =>
    cases h
    exact ⟨rfl, rfl, fun _ => rfl⟩

end PoolCommand

namespace PoolBench

/-- The byte that was put last at an offset of the page in a slot, if one was. -/
def lastPut (slot offset : Nat) : List PoolCommand → Option UInt8
  | [] => none
  | c :: rest => (lastPut slot offset rest).or (c.put? slot offset)

theorem page?_setSlot (b : PoolBench) (f : Page → Option Page) (s slot : Nat) :
    (b.setSlot s ((b.page? s).bind f)).page? slot =
      (b.page? slot).bind fun p => if s = slot then f p else some p := by
  by_cases hs : s = slot
  · subst hs
    rcases Nat.lt_or_ge s b.slots.length with hlt | hge
    · simp [page?, setSlot, hlt]
    · simp [page?, setSlot, hge]
  · simp [page?, setSlot, hs]

/-- What a command that is carried out does to a bench. -/
inductive Step (b : PoolBench) : PoolCommand → PoolBench → Prop
  /-- It only looks, or finds no page to hand out or to give back. -/
  | still {c : PoolCommand} (same : ∀ slot, (b.page? slot).bind (c.leaves slot) = b.page? slot) :
    Step b c b
  | handOut {p : Page} {pool : PagePool} (allocated : b.pool.allocate = some (p, pool)) :
    Step b .allocate { b with pool, slots := b.slots ++ [some p] }
  /-- It does something to the page in one slot, and may give that page back. -/
  | change {c : PoolCommand} {s : Nat} {f : Page → Option Page} {pool : PagePool}
    (leaves : ∀ slot p, c.leaves slot p = if s = slot then f p else some p)
    (back : pool = b.pool ∨ ∃ p, b.pool.giveBack p = .ok pool) :
    Step b c { b.setSlot s ((b.page? s).bind f) with pool }
  /-- A page comes from elsewhere. -/
  | foreign {size : Nat} {p : Page} {pool : PagePool} (back : b.pool.giveBack p = .ok pool) :
    Step b (.freeForeign size) { b with pool, foreign := b.foreign + 1 }

theorem step_of_perform {c : PoolCommand} {answer : Answer}
    (h : c.perform b = .ok (answer, b')) : Step b c b' := by
  have hlooks {c : PoolCommand} (hsame : ∀ slot, c.leaves slot = some) : Step b c b :=
    .still fun slot => by rw [hsame slot, Option.bind_fun_some]
  cases c with
  | allocate =>
    cases halloc : b.pool.allocate with
    | none =>
      simp only [PoolCommand.perform, halloc] at h
      cases h
      exact hlooks fun _ => rfl
    | some handed =>
      rw [allocate_of_some halloc] at h
      cases h
      exact .handOut halloc
  | free s =>
    cases hs : b.page? s with
    | none =>
      simp only [PoolCommand.perform, hs] at h
      cases h
      -- a slot that is empty already stays so
      refine .still fun slot => ?_
      by_cases heq : s = slot
      · rw [← heq, hs]
        rfl
      · simp [PoolCommand.leaves, heq]
    | some p =>
      simp only [PoolCommand.perform, hs] at h
      cases hgive : b.pool.giveBack p with
      | error f =>
        rw [hgive] at h
        cases h
      | ok pool =>
        rw [hgive] at h
        cases h
        have hstep : Step b (.free s) { b.setSlot s ((b.page? s).bind fun _ => none) with pool } :=
          .change (fun _ _ => rfl) (.inr ⟨p, hgive⟩)
        rwa [Option.bind_fun_none] at hstep
  | drop s =>
    cases h
    have hstep : Step b (.drop s) (b.setSlot s ((b.page? s).bind fun _ => none)) :=
      .change (fun _ _ => rfl) (.inl rfl)
    rwa [Option.bind_fun_none] at hstep
  | freeForeign size =>
    simp only [PoolCommand.perform] at h
    cases hgive : b.pool.giveBack
        (Page.zeroed (foreignBase + b.pool.allocated + b.foreign) size) with
    | error f =>
      rw [hgive] at h
      cases h
    | ok pool =>
      rw [hgive] at h
      cases h
      exact .foreign hgive
  | install s =>
    cases h
    have hstep : Step b (.install s) (b.setSlot s ((b.page? s).bind (some ∘ Page.installCanary))) :=
      .change (fun _ _ => rfl) (.inl rfl)
    rwa [← Option.map_eq_bind] at hstep
  | write s offset value =>
    cases h
    have hstep : Step b (.write s offset value)
        (b.setSlot s ((b.page? s).bind (some ∘ (Page.write · offset value)))) :=
      .change (fun _ _ => rfl) (.inl rfl)
    rwa [← Option.map_eq_bind] at hstep
  | check _ | read _ _ | info =>
    cases h
    exact hlooks fun _ => rfl

/-- A slot is used once: what is in it after a command is what the command left there. -/
theorem page?_perform {c : PoolCommand} {answer : Answer} (h : c.perform b = .ok (answer, b'))
    (hslot : slot < b.slots.length) :
    b'.page? slot = (b.page? slot).bind (c.leaves slot) ∧ b.slots.length ≤ b'.slots.length := by
  cases step_of_perform h with
  | still same => exact ⟨(same slot).symm, Nat.le_refl _⟩
  | handOut =>
    refine ⟨?_, by simp⟩
    rw [page?, List.getElem?_append_left hslot]
    exact (Option.bind_fun_some (b.page? slot)).symm
  | @change _ s f _ leaves =>
    refine ⟨?_, by simp [setSlot]⟩
    rw [funext (leaves slot)]
    exact page?_setSlot b f s slot
  | foreign => exact ⟨(Option.bind_fun_some (b.page? slot)).symm, Nat.le_refl _⟩

/-- Pages of another size come neither in nor out. -/
theorem pageSize_perform {c : PoolCommand} {answer : Answer} (h : c.perform b = .ok (answer, b')) :
    b'.pool.pageSize = b.pool.pageSize := by
  have hback {p : Page} {pool : PagePool} (hgive : b.pool.giveBack p = .ok pool) :
      pool.pageSize = b.pool.pageSize := by
    obtain ⟨_, rfl⟩ := PagePool.giveBack_eq_ok_iff.mp hgive
    rfl
  cases step_of_perform h with
  | still => rfl
  | handOut allocated =>
    obtain ⟨_, _, _, hpool⟩ := PagePool.of_allocate allocated
    rw [hpool]
  | change _ back =>
    rcases back with rfl | ⟨p, hgive⟩
    · rfl
    · exact hback hgive
  | foreign back => exact hback back

/-! ## Commands one after another -/

theorem lt_of_page? (h : b.page? slot = some p) : slot < b.slots.length := by
  rw [page?, Option.join_eq_some_iff] at h
  exact (List.getElem?_eq_some_iff.mp h).1

theorem of_after_cons {c : PoolCommand} {rest : List PoolCommand}
    (h : after (c :: rest) b = .ok b') :
    ∃ answer b₁, c.perform b = .ok (answer, b₁) ∧ after rest b₁ = .ok b' := by
  rw [after] at h
  cases hperform : c.perform b with
  | error f =>
    rw [hperform] at h
    cases h
  | ok r =>
    rw [hperform] at h
    exact ⟨r.1, r.2, rfl, h⟩

/-- A slot that a page has left stays empty. -/
theorem page?_after_of_none {commands : List PoolCommand} (h : after commands b = .ok b')
    (hslot : slot < b.slots.length) (hnone : b.page? slot = none) : b'.page? slot = none := by
  induction commands generalizing b with
  | nil =>
    cases h
    exact hnone
  | cons c rest ih =>
    obtain ⟨answer, b₁, hperform, hrest⟩ := of_after_cons h
    obtain ⟨hpage, hmore⟩ := page?_perform hperform hslot
    rw [hnone, Option.bind_none] at hpage
    exact ih hrest (Nat.lt_of_lt_of_le hslot hmore) hpage

/-- What is in a slot after commands, when page `p` was in it before them. -/
structure Holds (commands : List PoolCommand) (slot : Nat) (p : Page) (b : PoolBench) : Prop where
  /-- The page leaves its slot when it is given back or dropped. -/
  gone : commands.any (·.empties slot) = true → b.page? slot = none
  /-- Otherwise it is still there, and each byte is what was last put there. -/
  stays : commands.any (·.empties slot) = false → ∃ q, b.page? slot = some q ∧
    q.number = p.number ∧ q.size = p.size ∧
    ∀ i, q.read i = (lastPut slot i commands).getD (p.read i)

theorem holds_of_after {commands : List PoolCommand} (h : after commands b = .ok b')
    (hpage : b.page? slot = some p) : Holds commands slot p b' := by
  induction commands generalizing b p with
  | nil =>
    cases h
    exact ⟨nofun, fun _ => ⟨p, hpage, rfl, rfl, fun _ => rfl⟩⟩
  | cons c rest ih =>
    obtain ⟨answer, b₁, hperform, hrest⟩ := of_after_cons h
    have hslot := lt_of_page? hpage
    obtain ⟨hnext, hmore⟩ := page?_perform hperform hslot
    rw [hpage, Option.bind_some] at hnext
    cases hleaves : c.leaves slot p with
    | none =>
      have hempties := PoolCommand.leaves_eq_none_iff.mp hleaves
      refine ⟨fun _ => ?_, fun hstays => ?_⟩
      · exact page?_after_of_none hrest (Nat.lt_of_lt_of_le hslot hmore) (hnext.trans hleaves)
      · simp [hempties] at hstays
    | some q =>
      have hempties : c.empties slot = false := by
        rw [← Bool.not_eq_true, ← PoolCommand.leaves_eq_none_iff (p := p), hleaves]
        exact nofun
      obtain ⟨hnumber, hsize, hread⟩ := PoolCommand.read_of_leaves hleaves
      have hholds := ih hrest (hnext.trans hleaves)
      refine ⟨fun hgone => hholds.gone (by simpa [hempties] using hgone), fun hstays => ?_⟩
      obtain ⟨r, hr, hnumber', hsize', hread'⟩ := hholds.stays (by simpa [hempties] using hstays)
      refine ⟨r, hr, hnumber'.trans hnumber, hsize'.trans hsize, fun i => ?_⟩
      rw [hread' i, hread i, lastPut]
      cases lastPut slot i rest <;> rfl

theorem fair_append {earlier later : List PoolCommand} (h : Fair (earlier ++ later) b) :
    Fair earlier b ∧ ∀ b', after earlier b = .ok b' → Fair later b' := by
  induction earlier generalizing b with
  | nil =>
    refine ⟨trivial, fun b' hafter => ?_⟩
    cases hafter
    exact h
  | cons c rest ih =>
    obtain ⟨hc, hrest⟩ := h
    refine ⟨⟨hc, fun answer b₁ hperform => (ih (hrest answer b₁ hperform)).1⟩, fun b' hafter => ?_⟩
    obtain ⟨answer, b₁, hperform, hafter⟩ := of_after_cons hafter
    exact (ih (hrest answer b₁ hperform)).2 b' hafter

/-- Commands that keep to the rules are carried out, however many they are. -/
theorem Balanced.carried {commands : List PoolCommand} (h : Balanced b) (hfair : Fair commands b) :
    ∃ b', PoolBench.after commands b = .ok b' ∧ Balanced b' ∧
      b'.pool.pageSize = b.pool.pageSize := by
  induction commands generalizing b with
  | nil => exact ⟨b, rfl, h, rfl⟩
  | cons c rest ih =>
    obtain ⟨hc, hrest⟩ := hfair
    obtain ⟨answer, b₁, hperform, hbalanced, _⟩ := h.perform hc
    obtain ⟨b', hafter, hbalanced', hsize⟩ := ih hbalanced (hrest _ _ hperform)
    refine ⟨b', ?_, hbalanced', hsize.trans (pageSize_perform hperform)⟩
    unfold PoolBench.after
    rw [hperform]
    exact hafter

/-! ## Pages go out clean, and to one holder each -/

/-- Page `p` was handed out in a slot: it is clean, and none of those that were held. -/
structure HandedOut (b : PoolBench) (slot : Nat) (p : Page) (b' : PoolBench) : Prop where
  clean : p.Clean b.pool.pageSize
  other : ∀ q ∈ b.held, q.number ≠ p.number
  /-- No byte of it is a byte of a page that was held. -/
  apart : ∀ q ∈ b.held, q.base + q.size ≤ p.base ∨ p.base + p.size ≤ q.base
  /-- The slot is a new one, and the others are as they were. -/
  slots : slot = b.slots.length ∧ b'.slots = b.slots ++ [some p]

theorem HandedOut.page? (h : HandedOut b slot p b') : b'.page? slot = some p := by
  obtain ⟨rfl, hslots⟩ := h.slots
  rw [PoolBench.page?, hslots, List.getElem?_concat_length]
  rfl

theorem Balanced.handedOut (h : Balanced b) (hroomy : Page.canaryBytes.length ≤ b.pool.pageSize)
    (hperform : PoolCommand.allocate.perform b = .ok (.page slot p, b')) :
    HandedOut b slot p b' := by
  have hheld (q : Page) (hq : q ∈ b.held) : q ∈ b.known := List.mem_append_left _ hq
  have hout {r : Page} {pool : PagePool} (halloc : b.pool.allocate = some (r, pool))
      (hclean : r.Clean b.pool.pageSize) (hother : ∀ q ∈ b.held, q.number ≠ r.number) :
      HandedOut b slot p b' := by
    rw [allocate_of_some halloc] at hperform
    cases hperform
    refine ⟨hclean, hother, fun q hq => ?_, rfl, rfl⟩
    exact Page.disjoint_of_number_ne ((h.apart.size q (hheld q hq)).trans hclean.size.symm)
      (hother q hq)
  rcases Nat.lt_or_ge b.pool.inUse b.pool.capacity with hroom | hfull
  · cases hfree : b.pool.free with
    | cons r rest =>
      -- whatever was written to it before, it is cleared
      have hknown : b.known.Perm (r :: (b.held ++ rest)) := by
        unfold known
        rw [hfree]
        exact List.perm_middle
      have hapart := h.apart.perm hknown
      refine hout (h.allocate_of_free hroom hfree) ?_ fun q hq => ?_
      · exact Page.clean_installCanary (hapart.size r List.mem_cons_self) hroomy fun _ => rfl
      · exact hapart.number_ne (List.mem_append_left _ hq)
    | nil =>
      refine hout (h.allocate_of_nil hroom hfree) ?_ fun q hq => ?_
      · exact Page.clean_installCanary rfl hroomy fun _ => rfl
      · exact Nat.ne_of_lt (h.apart.made q (hheld q hq))
  · rw [allocate_of_full hfull] at hperform
    cases hperform

/-- What has become of a page that was handed out in a slot, after commands. -/
structure Kept (commands : List PoolCommand) (slot : Nat) (p : Page) (b : PoolBench) : Prop where
  /-- It is held until it is given back or dropped. -/
  held_iff : (b.page? slot).isSome = true ↔ commands.any (·.empties slot) = false
  same : ∀ q, b.page? slot = some q → q.number = p.number ∧ q.size = p.size
  /-- While it is held, each byte is what was last put there, and a clean one before that. -/
  read : ∀ q, b.page? slot = some q →
    ∀ i, q.read i = (lastPut slot i commands).getD (Page.cleanByte i)
  /-- The pattern is gone when another byte was put in the place of one of its own last. -/
  spoilt_iff : ∀ q, b.page? slot = some q → (q.checkCanary = false ↔
    ∃ i < Page.canaryBytes.length, ∃ v, lastPut slot i commands = some v ∧ v ≠ Page.cleanByte i)
  word_iff : ∀ q, b.page? slot = some q →
    (q.checkCanary = false ↔ Page.littleEndian q.front ≠ 0xdeadbeefcafebabe)

theorem Holds.kept {commands : List PoolCommand} {pageSize : Nat} (h : Holds commands slot p b)
    (hclean : p.Clean pageSize) : Kept commands slot p b := by
  -- a page that is there has stayed
  have hstays (q : Page) (hq : b.page? slot = some q) : q.number = p.number ∧ q.size = p.size ∧
      ∀ i, q.read i = (lastPut slot i commands).getD (Page.cleanByte i) := by
    cases hany : commands.any (·.empties slot) with
    | true =>
      rw [h.gone hany] at hq
      cases hq
    | false =>
      obtain ⟨r, hr, hnumber, hsize, hread⟩ := h.stays hany
      rw [hq] at hr
      cases hr
      exact ⟨hnumber, hsize, fun i => by rw [hread i, hclean.read_eq i]⟩
  constructor
  case held_iff =>
    cases hany : commands.any (·.empties slot) with
    | true => simp [h.gone hany]
    | false =>
      obtain ⟨r, hr, _⟩ := h.stays hany
      simp [hr]
  case same => exact fun q hq => ⟨(hstays q hq).1, (hstays q hq).2.1⟩
  case read => exact fun q hq => (hstays q hq).2.2
  case spoilt_iff =>
    intro q hq
    have hread := (hstays q hq).2.2
    rw [← Bool.not_eq_true, Page.checkCanary_iff_bytes]
    simp only [Classical.not_forall, exists_prop]
    constructor
    · rintro ⟨i, hi, hne⟩
      rw [hread i] at hne
      cases hput : lastPut slot i commands with
      | none => simp [hput] at hne
      | some v => exact ⟨i, hi, v, hput, by simpa [hput] using hne⟩
    · rintro ⟨i, hi, v, hput, hne⟩
      refine ⟨i, hi, ?_⟩
      rw [hread i, hput]
      exact hne
  case word_iff =>
    intro q hq
    rw [← Bool.not_eq_true, Page.checkCanary_iff_canary]
    exact Iff.rfl

/-- Whatever is done with the pages of a pool by its rules, each page goes out clean and to one holder
alone, and its contents change only by what the holder puts there. -/
theorem handed_out_clean_and_alone {pageSize capacity : Nat} {pool : PagePool}
    {earlier later : List PoolCommand} (hpower : Config.isPowerOfTwo pageSize = true)
    (hmin : 4096 ≤ pageSize) (hmax : pageSize ≤ 2 ^ (62 : Nat))
    (hpool : PagePool.ofCapacity pageSize capacity = .ok pool)
    (hfair : Fair (earlier ++ .allocate :: later) { pool }) :
    ∃ b answer b₁ b₂, after earlier { pool } = .ok b ∧ b.pool.pageSize = pageSize ∧
      PoolCommand.allocate.perform b = .ok (answer, b₁) ∧ after later b₁ = .ok b₂ ∧
      ∀ slot p, answer = .page slot p → HandedOut b slot p b₁ ∧ Kept later slot p b₂ := by
  have hlayout : PagePool.canLayOut pageSize = true := by
    rw [PagePool.canLayOut, hpower, Bool.true_and, decide_eq_true_eq]
    omega
  obtain ⟨rfl, hnew⟩ := balanced_of_ofCapacity hlayout hpool
  obtain ⟨hearlier, hfair⟩ := fair_append hfair
  obtain ⟨b, hafter, hbalanced, hsize⟩ := hnew.carried hearlier
  obtain ⟨hallocate, hlater⟩ := hfair b hafter
  obtain ⟨answer, b₁, hperform, hbalanced', _⟩ := hbalanced.perform hallocate
  obtain ⟨b₂, hafter', _⟩ := hbalanced'.carried (hlater _ _ hperform)
  refine ⟨b, answer, b₁, b₂, hafter, hsize, hperform, hafter', ?_⟩
  rintro slot p rfl
  have hroomy : Page.canaryBytes.length ≤ b.pool.pageSize := by
    rw [hsize]
    exact Nat.le_trans (by decide) hmin
  have hout := hbalanced.handedOut hroomy hperform
  exact ⟨hout, (holds_of_after hafter' hout.page?).kept hout.clean⟩

/-- A page is written to, spoilt and given back, and goes out again as if nothing had been. Its new
holder changes one byte that lies behind the pattern. -/
theorem handed_out_clean_and_alone_reused : ∃ b b₁ b₂ p q,
    after [.allocate, .allocate, .write 0 0 0, .write 0 100 0xab, .free 0]
      { pool := { pageSize := 4096, capacity := 2 } } = .ok b ∧
    PoolCommand.allocate.perform b = .ok (.page 2 p, b₁) ∧ HandedOut b 2 p b₁ ∧
    after [.write 2 8 1] b₁ = .ok b₂ ∧ Kept [.write 2 8 1] 2 p b₂ ∧
    p.number = 0 ∧ p.read 100 = 0 ∧ b₂.page? 2 = some q ∧ q.read 8 = 1 ∧ q.checkCanary = true := by
  have hpool : PagePool.ofCapacity 4096 2 = .ok { pageSize := 4096, capacity := 2 } := rfl
  have hfair : Fair ([.allocate, .allocate, .write 0 0 0, .write 0 100 0xab, .free 0]
      ++ .allocate :: [.write 2 8 1]) { pool := { pageSize := 4096, capacity := 2 } } := by
    refine ⟨trivial, ?_⟩
    rintro _ _ ⟨⟩
    refine ⟨trivial, ?_⟩
    rintro _ _ ⟨⟩
    refine ⟨⟨_, rfl, by decide⟩, ?_⟩
    rintro _ _ ⟨⟩
    refine ⟨⟨_, rfl, by decide⟩, ?_⟩
    rintro _ _ ⟨⟩
    refine ⟨rfl, ?_⟩
    rintro _ _ ⟨⟩
    refine ⟨trivial, ?_⟩
    rintro _ _ ⟨⟩
    exact ⟨⟨_, rfl, by decide⟩, fun _ _ _ => trivial⟩
  obtain ⟨b, answer, b₁, b₂, hafter, _, hperform, hafter', hpages⟩ :=
    handed_out_clean_and_alone (by decide) (by decide) (by decide) hpool hfair
  cases hafter
  cases hperform
  cases hafter'
  obtain ⟨hout, hkept⟩ := hpages _ _ rfl
  exact ⟨_, _, _, _, _, rfl, rfl, hout, rfl, hkept, rfl, rfl, rfl, by decide, by decide⟩

end PoolBench
end Session
end RoundRobin
