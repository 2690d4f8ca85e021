import AmdBundle.Proofs.Program.Draft
import Mathlib.Data.List.Basic
import Mathlib.Order.Basic

/-!
# AmdBundle.Proofs.Program.Layout — where the spans of a built tree lie

What one call of a builder does while its sums are places in a source (`Builder.exists_span`,
`Builder.exists_array`, `Builder.exists_call`), and where that puts a span: `Draft.LiesAt` for one
draft, `PartsLieAt` for drafts built one after the other.  An array or a call with its parts is a
group.  Its span lies around a part exactly if no more calls stand in front of that part than in
front of the first one, up to what has been built in between (`PartsLieAt.fits`).
-/

namespace AmdBundle

/-! ### Sums of places -/

namespace Builder

theorem toNat_add_of_lt {a b : UInt32} (h : a.toNat + b.toNat < UInt32.size) :
    (a + b).toNat = a.toNat + b.toNat := by
  rw [UInt32.toNat_add]
  exact Nat.mod_eq_of_lt h

theorem add?_of_lt {a b : UInt32} (h : a.toNat + b.toNat < UInt32.size) :
    add? a b = some (a + b) := if_pos h

theorem satAdd_of_lt {a b : UInt32} (h : a.toNat + b.toNat < UInt32.size) :
    satAdd a b = a + b := by
  refine if_pos ?_
  have hb : b.toNat < UInt32.size := b.toNat_lt
  have hle : b ≤ lastOffset := by
    rw [UInt32.le_iff_toNat_le]
    exact Nat.le_of_lt_succ hb
  rw [UInt32.le_iff_toNat_le, UInt32.toNat_sub_of_le _ _ hle]
  have hlast : lastOffset.toNat = UInt32.size - 1 := rfl
  omega

theorem toNat_before (a : UInt32) : (before a).toNat = a.toNat - 1 := by
  unfold before
  by_cases hzero : a = 0
  · rw [if_pos hzero, hzero]
    rfl
  · rw [if_neg hzero]
    have hone : (1 : UInt32) ≤ a := by
      rw [UInt32.le_iff_toNat_le]
      have hpos : a.toNat ≠ 0 := fun h => hzero (UInt32.toNat_inj.mp h)
      exact Nat.one_le_iff_ne_zero.mpr hpos
    exact UInt32.toNat_sub_of_le _ _ hone

theorem toNat_max (a b : UInt32) : (max a b).toNat = max a.toNat b.toNat := by
  show (if a ≤ b then b else a).toNat = _
  by_cases hle : a ≤ b
  · rw [if_pos hle, Nat.max_eq_right (UInt32.le_iff_toNat_le.mp hle)]
  · rw [if_neg hle, Nat.max_eq_left]
    exact Nat.le_of_lt (UInt32.lt_iff_toNat_lt.mp (UInt32.not_le.mp hle))

/-! ### What one call of a builder does -/

variable {b : Builder}

/-- The builder has moved by so many places and given out so many ids. -/
structure MovedTo (b : Builder) (places ids : Nat) (after : Builder) : Prop where
  offset : after.offset.toNat = b.offset.toNat + places
  nextId : after.nextId.toNat = b.nextId.toNat + ids

theorem exists_span {length : Nat} (h : b.offset.toNat + (length + 1) < UInt32.size) :
    ∃ s after, (span length).run b = (s, after) ∧ (span? length).run b = some (s, after) ∧
      s.start = b.offset ∧ s.stop.toNat = b.offset.toNat + length ∧
      b.MovedTo (length + 1) 0 after := by
  have hlength : length < UInt32.size := by omega
  have hof : (UInt32.ofNat length).toNat = length := Nat.mod_eq_of_lt hlength
  have hstop : b.offset.toNat + (UInt32.ofNat length).toNat < UInt32.size := by omega
  have hstop' : (b.offset + UInt32.ofNat length).toNat = b.offset.toNat + length := by
    rw [toNat_add_of_lt hstop, hof]
  have hnext : (b.offset + UInt32.ofNat length).toNat + (1 : UInt32).toNat < UInt32.size := by
    rw [hstop']
    exact h
  refine ⟨⟨b.offset, b.offset + UInt32.ofNat length⟩,
    { b with offset := b.offset + UInt32.ofNat length + 1 }, ?_, ?_, rfl, hstop', ?_, rfl⟩
  · show ((⟨b.offset, satAdd b.offset _⟩, ⟨b.nextId, satAdd (satAdd b.offset _) 1⟩) :
      Span × Builder) = _
    rw [if_pos hlength, satAdd_of_lt hstop, satAdd_of_lt hnext]
  · show (if length < UInt32.size then _ else none) = _
    rw [if_pos hlength, add?_of_lt hstop]
    show (add? (b.offset + UInt32.ofNat length) 1).bind _ = _
    rw [add?_of_lt hnext]
    rfl
  · show (b.offset + UInt32.ofNat length + 1).toNat = _
    rw [toNat_add_of_lt hnext, hstop']
    rfl

theorem exists_array {parts : List Expr} (h : (b.extent parts).stop.toNat + 1 < UInt32.size) :
    ∃ after, (array parts).run b = (.array (b.extent parts) parts, after) ∧
      (array? parts).run b = some (.array (b.extent parts) parts, after) ∧
      after.offset.toNat = (b.extent parts).stop.toNat + 1 ∧ after.nextId = b.nextId := by
  have hnext : (b.extent parts).stop.toNat + (1 : UInt32).toNat < UInt32.size := h
  refine ⟨{ b with offset := (b.extent parts).stop + 1 }, rfl, ?_, ?_, rfl⟩
  · show (add? (b.extent parts).stop 1).bind _ = _
    rw [add?_of_lt hnext]
    rfl
  · exact toNat_add_of_lt hnext

theorem exists_call (callee : String) {args : List Expr}
    (h : (b.extent args).stop.toNat + 1 < UInt32.size) (hid : b.nextId.toNat + 1 < UInt32.size) :
    ∃ s after, (plain.call callee args).run b = (.call b.nextId s callee args, after) ∧
      (call? callee args).run b = some (.call b.nextId s callee args, after) ∧
      s.start.toNat = (b.extent args).start.toNat - 1 ∧
      s.stop.toNat = (b.extent args).stop.toNat + 1 ∧
      after.offset.toNat = max b.offset.toNat ((b.extent args).stop.toNat + 1) ∧
      after.nextId.toNat = b.nextId.toNat + 1 := by
  have hstop : (b.extent args).stop.toNat + (1 : UInt32).toNat < UInt32.size := h
  have hnext : b.nextId.toNat + (1 : UInt32).toNat < UInt32.size := hid
  refine ⟨⟨before (b.extent args).start, (b.extent args).stop + 1⟩,
    ⟨b.nextId + 1, max b.offset ((b.extent args).stop + 1)⟩, rfl, ?_, toNat_before _,
    toNat_add_of_lt hstop, ?_, toNat_add_of_lt hnext⟩
  · show (add? b.nextId 1).bind _ = _
    rw [add?_of_lt hnext]
    show (add? (b.extent args).stop 1).bind _ = _
    rw [add?_of_lt hstop]
    rfl
  · show (max b.offset ((b.extent args).stop + 1)).toNat = _
    rw [toNat_max, toNat_add_of_lt hstop]
    rfl

end Builder

/-! ### Where spans lie -/

/-- Where the span of a draft lies that is built from an offset on. -/
structure Draft.LiesAt (d : Draft) (offset : Nat) (span : Span) : Prop where
  start : span.start.toNat = offset + d.inset - d.leftReach
  stop : span.stop.toNat + 1 = offset + d.width + d.rightReach

/-- Where the spans of drafts lie that are built one after the other from an offset on. -/
structure PartsLieAt (parts : List Draft) (offset : Nat) (spans : List Span) : Prop where
  length : spans.length = parts.length
  lies : ∀ (j : Nat) (d : Draft) (span : Span), parts[j]? = some d → spans[j]? = some span →
    d.LiesAt (offset + widthOfDrafts (parts.take j)) span

theorem widthOfDrafts_append (before behind : List Draft) :
    widthOfDrafts (before ++ behind) = widthOfDrafts before + widthOfDrafts behind := by
  induction before with
  | nil => rw [List.nil_append, widthOfDrafts, Nat.zero_add]
  | cons d before ih => rw [List.cons_append, widthOfDrafts, widthOfDrafts, ih, Nat.add_assoc]

/-- Every call of a builder but that of a call moves it. -/
theorem Draft.rightReach_le (d : Draft) : d.rightReach ≤ 1 := by
  cases d <;> simp [rightReach]

theorem endReach_concat (before : List Draft) (last : Draft) :
    endReach (before ++ [last]) = last.rightReach := by
  simp [endReach]

namespace PartsLieAt

variable {parts : List Draft} {offset : Nat} {spans : List Span} {d : Draft} {span : Span}

theorem nil : PartsLieAt [] offset [] where
  length := rfl
  lies j d span hd := by simp at hd

theorem cons (hfirst : d.LiesAt offset span) (hrest : PartsLieAt parts (offset + d.width) spans) :
    PartsLieAt (d :: parts) offset (span :: spans) where
  length := congrArg Nat.succ hrest.length
  lies j other found hother hfound := by
    cases j with
    | zero =>
      obtain rfl : d = other := by simpa using hother
      obtain rfl : span = found := by simpa using hfound
      exact hfirst
    | succ j =>
      have hlies := hrest.lies j other found (by simpa using hother) (by simpa using hfound)
      rw [Nat.add_assoc] at hlies
      exact hlies

variable {es : List Expr} {b : Builder}

theorem start_extent (h : PartsLieAt parts offset (es.map Expr.span))
    (hb : b.offset.toNat = offset + widthOfDrafts parts) :
    (b.extent es).start.toNat = offset + frontInset parts - frontReach parts := by
  cases parts with
  | nil =>
    obtain rfl : es = [] := by simpa using h.length
    exact hb
  | cons d rest =>
    cases es with
    | nil => exact absurd h.length (by simp)
    | cons e es =>
      have hfirst := h.lies 0 d e.span rfl rfl
      exact hfirst.start

theorem stop_extent (h : PartsLieAt parts offset (es.map Expr.span))
    (hb : b.offset.toNat = offset + widthOfDrafts parts) :
    (b.extent es).stop.toNat + 1 = offset + widthOfDrafts parts + endReach parts := by
  rcases List.eq_nil_or_concat' parts with rfl | ⟨before, last, rfl⟩
  · obtain rfl : es = [] := by simpa using h.length
    exact congrArg Nat.succ hb
  · rcases List.eq_nil_or_concat' es with rfl | ⟨others, e, rfl⟩
    · exact absurd h.length (by simp)
    · have hlength : others.length = before.length := by simpa using h.length
      have hlast := h.lies before.length last e.span (by simp) (by simp [← hlength])
      rw [List.take_left] at hlast
      have hstop : (b.extent (others ++ [e])).stop = e.span.stop := by
        simp [Builder.extent]
      rw [hstop, hlast.stop, widthOfDrafts_append, endReach_concat, widthOfDrafts, widthOfDrafts]
      omega

end PartsLieAt

/-! ### Arrays and calls around their parts -/

def Span.Contains (outer inner : Span) : Prop :=
  outer.start ≤ inner.start ∧ inner.stop ≤ outer.stop

instance (outer inner : Span) : Decidable (outer.Contains inner) :=
  inferInstanceAs (Decidable (_ ∧ _))

/-- An array or a call that is to be built. -/
structure DraftGroup where
  /-- How many places its span has on both sides of its parts. -/
  margin : Nat
  parts : List Draft

/-- The span of an array or a call, and those of its parts. -/
structure SpanGroup where
  span : Span
  parts : List Span

mutual

/-- The arrays and calls in a draft, each before those in its parts. -/
def Draft.groups : Draft → List DraftGroup
  | .str _ | .ident _ | .object => []
  | .function _ body => draftGroupsOfNodes body
  | .array elements => ⟨0, elements⟩ :: groupsOfDrafts elements
  | .call _ args => ⟨1, args⟩ :: groupsOfDrafts args

def groupsOfDrafts : List Draft → List DraftGroup
  | [] => []
  | e :: rest => e.groups ++ groupsOfDrafts rest

def draftGroupsOfNodes : List DraftNode → List DraftGroup
  | [] => []
  | .expr e :: rest => e.groups ++ draftGroupsOfNodes rest
  | .tryCatch block handler :: rest =>
    draftGroupsOfNodes block ++ draftGroupsOfNodes handler ++ draftGroupsOfNodes rest

end

mutual

/-- The arrays and calls in an expression, each before those in its parts. -/
def Expr.groups : Expr → List SpanGroup
  | .str _ _ | .object _ | .ident _ _ | .other _ => []
  | .function _ _ body => groupsOfNodes body
  | .array span elements => ⟨span, elements.map Expr.span⟩ :: groupsOfExprs elements
  | .call _ span _ args => ⟨span, args.map Expr.span⟩ :: groupsOfExprs args

def groupsOfExprs : List Expr → List SpanGroup
  | [] => []
  | e :: rest => e.groups ++ groupsOfExprs rest

def groupsOfNodes : List Node → List SpanGroup
  | [] => []
  | .expr e :: rest => e.groups ++ groupsOfNodes rest
  | .tryCatch block handler :: rest =>
    groupsOfNodes block ++ groupsOfNodes handler ++ groupsOfNodes rest

end

/-- The span of an array or a call lies around a part exactly if it begins at the first place, or if
the part reaches no further to the left than the first part and the margin allow. -/
structure DraftGroup.Fits (g : DraftGroup) (built : SpanGroup) : Prop where
  length : built.parts.length = g.parts.length
  contains_iff : ∀ (j : Nat) (d : Draft) (span : Span), g.parts[j]? = some d →
    built.parts[j]? = some span →
    (built.span.Contains span ↔ built.span.start = 0 ∨
      d.leftReach + frontInset g.parts ≤
        widthOfDrafts (g.parts.take j) + d.inset + frontReach g.parts + g.margin)

theorem Draft.width_pos (d : Draft) : 0 < d.width := by
  match d with
  | .str _ | .ident _ | .object | .function _ _ =>
    rw [width]
    exact Nat.succ_pos _
  | .array [] | .call _ [] =>
    rw [width]
    exact Nat.one_pos
  | .array (e :: rest) | .call _ (e :: rest) =>
    have hpos := width_pos e
    rw [width, widthOfDrafts]
    omega

theorem width_take_le {parts : List Draft} {j : Nat} {d : Draft} (hd : parts[j]? = some d) :
    widthOfDrafts (parts.take j) + d.width + d.rightReach ≤
      widthOfDrafts parts + endReach parts := by
  obtain ⟨hj, hget⟩ := List.getElem?_eq_some_iff.mp hd
  have hparts : parts = parts.take j ++ d :: parts.drop (j + 1) := by
    rw [← hget, ← List.drop_eq_getElem_cons hj, List.take_append_drop]
  generalize parts.take j = before at hparts
  generalize parts.drop (j + 1) = behind at hparts
  subst hparts
  rw [widthOfDrafts_append, widthOfDrafts]
  cases behind with
  | nil =>
    rw [endReach_concat, widthOfDrafts]
    omega
  | cons next behind =>
    -- the next part takes at least the place that a call would reach into
    have hnext := next.width_pos
    have hreach := d.rightReach_le
    rw [widthOfDrafts]
    omega

/-- The law for one group, whose span has the margin on both sides of its parts. -/
theorem PartsLieAt.fits {g : DraftGroup} {built : SpanGroup} {offset : Nat}
    (h : PartsLieAt g.parts offset built.parts)
    (hstart : built.span.start.toNat =
      offset + frontInset g.parts - (frontReach g.parts + g.margin))
    (hstop : built.span.stop.toNat + 1 =
      offset + widthOfDrafts g.parts + endReach g.parts + g.margin) : g.Fits built where
  length := h.length
  contains_iff j d span hd hspan := by
    obtain ⟨hstart', hstop'⟩ := h.lies j d span hd hspan
    have hend := width_take_le hd
    have hzero : built.span.start = 0 ↔ built.span.start.toNat = 0 := UInt32.toNat_inj.symm
    rw [Span.Contains, UInt32.le_iff_toNat_le, UInt32.le_iff_toNat_le, hzero]
    omega

end AmdBundle
