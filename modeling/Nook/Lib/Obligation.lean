import Mathlib.Data.Set.Basic

set_option autoImplicit false

namespace Nook.Lib

variable {Id : Type}

/-- The accepted members of a history. Some of them open an obligation, which a
direct successor closes. -/
structure Obligations (Id : Type) where
  accepted : Set Id
  below : Id → Id → Prop
  opens : Id → Prop
  closes : Id → Id → Prop
  below_refl : ∀ id, below id id
  below_trans : ∀ first second third, below first second → below second third → below first third
  accepted_below : ∀ earlier id, below earlier id → id ∈ accepted → earlier ∈ accepted
  closes_below : ∀ closer opener, closes closer opener → below opener closer
  below_closer : ∀ closer opener id, closes closer opener → below id closer →
    id = closer ∨ below id opener

namespace Obligations

variable (whole part rest : Obligations Id)

/-- An obligation that no accepted member closes. -/
def Unmet (opener : Id) : Prop :=
  opener ∈ whole.accepted ∧ whole.opens opener ∧
    ∀ closer ∈ whole.accepted, ¬whole.closes closer opener

/-- The members at or above an unmet obligation. -/
def withheld : Set Id := { id | ∃ opener, whole.Unmet opener ∧ whole.below opener id }

/-- Every accepted obligation is closed by an accepted member. -/
def Met : Prop :=
  ∀ opener ∈ whole.accepted, whole.opens opener → ∃ closer ∈ whole.accepted,
    whole.closes closer opener

/-- `part` is what stays accepted of `whole` once the members of `removed` are gone. -/
structure Restricts (removed : Set Id) : Prop where
  accepted_iff : ∀ id, id ∈ part.accepted ↔
    id ∈ whole.accepted ∧ ∀ earlier, whole.below earlier id → earlier ∉ removed
  below_iff : ∀ id ∈ part.accepted, ∀ earlier, part.below earlier id ↔ whole.below earlier id
  opens_iff : ∀ id ∈ part.accepted, (part.opens id ↔ whole.opens id)
  closes_iff : ∀ closer ∈ part.accepted, ∀ opener,
    part.closes closer opener ↔ whole.closes closer opener

variable {whole part rest}

theorem withheld_above {earlier id : Id} (withheld : earlier ∈ whole.withheld)
    (above : whole.below earlier id) : id ∈ whole.withheld := by
  obtain ⟨opener, unmet, path⟩ := withheld
  exact ⟨opener, unmet, whole.below_trans _ _ _ path above⟩

/-- Settled once, an obligation stays met when its closers outside `kept` go,
unless all of them are themselves withheld and not kept. -/
def Dangling (whole : Obligations Id) (kept : Set Id) (opener : Id) : Prop :=
  opener ∈ whole.accepted ∧ opener ∉ whole.withheld ∧ whole.opens opener ∧
    ∀ closer ∈ whole.accepted, whole.closes closer opener →
      closer ∈ whole.withheld ∧ closer ∉ kept

section Settling

/-! Two rounds of withholding: the first spares the members of `kept`, the
second removes what is withheld of the outcome of the first. -/

variable {kept : Set Id} (first : whole.Restricts part (whole.withheld \ kept))
  (second : part.Restricts rest part.withheld)

include first

theorem clear_accepted {id : Id} (accepted : id ∈ whole.accepted) (clear : id ∉ whole.withheld) :
    id ∈ part.accepted := by
  refine (first.accepted_iff id).mpr ⟨accepted, fun earlier path removed => ?_⟩
  exact clear (withheld_above removed.1 path)

theorem unmet_part_of_unmet {opener : Id} (unmet : whole.Unmet opener)
    (accepted : opener ∈ part.accepted) : part.Unmet opener := by
  obtain ⟨_, opens, none⟩ := unmet
  refine ⟨accepted, (first.opens_iff opener accepted).mpr opens, fun closer closerAccepted closes => ?_⟩
  have before := ((first.accepted_iff closer).mp closerAccepted).1
  exact none closer before ((first.closes_iff closer closerAccepted opener).mp closes)

/-- What the first round leaves unmet although it was met: the dangling obligations. -/
theorem unmet_part_iff {opener : Id} (accepted : opener ∈ whole.accepted)
    (clear : opener ∉ whole.withheld) : part.Unmet opener ↔ whole.Dangling kept opener := by
  have inPart := clear_accepted first accepted clear
  constructor
  · rintro ⟨_, opens, none⟩
    refine ⟨accepted, clear, (first.opens_iff opener inPart).mp opens, fun closer closerAccepted closes => ?_⟩
    have gone : closer ∉ part.accepted := fun closerPart =>
      none closer closerPart ((first.closes_iff closer closerPart opener).mpr closes)
    rw [first.accepted_iff] at gone
    by_contra spared
    refine gone ⟨closerAccepted, fun earlier path removed => ?_⟩
    rcases whole.below_closer closer opener earlier closes path with same | path
    · exact spared (same ▸ removed)
    · exact clear (withheld_above removed.1 path)
  · rintro ⟨_, _, opens, lost⟩
    refine ⟨inPart, (first.opens_iff opener inPart).mpr opens, fun closer closerPart closes => ?_⟩
    have kept := (first.accepted_iff closer).mp closerPart
    exact kept.2 closer (whole.below_refl closer)
      (lost closer kept.1 ((first.closes_iff closer closerPart opener).mp closes))

include second

/-- What both rounds leave, in terms of the history before them. -/
theorem mem_settled_iff (id : Id) :
    id ∈ rest.accepted ↔ id ∈ whole.accepted ∧ id ∉ whole.withheld ∧
      ∀ opener, whole.Dangling kept opener → ¬whole.below opener id := by
  rw [second.accepted_iff]
  constructor
  · rintro ⟨inPart, unwithheld⟩
    have accepted := ((first.accepted_iff id).mp inPart).1
    have unmet : ∀ opener, whole.below opener id → ¬part.Unmet opener := fun opener path unmet =>
      unwithheld id (part.below_refl id)
        ⟨opener, unmet, (first.below_iff id inPart opener).mpr path⟩
    refine ⟨accepted, ?_, fun opener dangling path => ?_⟩
    · rintro ⟨opener, open_, path⟩
      have openerPart := part.accepted_below opener id
        ((first.below_iff id inPart opener).mpr path) inPart
      exact unmet opener path (unmet_part_of_unmet first open_ openerPart)
    · exact unmet opener path ((unmet_part_iff first dangling.1 dangling.2.1).mpr dangling)
  · rintro ⟨accepted, clear, supported⟩
    have inPart := clear_accepted first accepted clear
    refine ⟨inPart, fun earlier path withheld => ?_⟩
    obtain ⟨opener, unmet, older⟩ := withheld
    have path := (first.below_iff id inPart opener).mp (part.below_trans _ _ _ older path)
    have openerAccepted := whole.accepted_below opener id path accepted
    have openerClear : opener ∉ whole.withheld := fun held => clear (withheld_above held path)
    exact supported opener ((unmet_part_iff first openerAccepted openerClear).mp unmet) path

/-- Exactly when both rounds leave every remaining obligation met. -/
theorem met_iff : rest.Met ↔
    ∀ opener, opener ∈ whole.accepted → opener ∉ whole.withheld → whole.opens opener →
      (∀ lost, whole.Dangling kept lost → ¬whole.below lost opener) →
      ∃ closer ∈ whole.accepted, whole.closes closer opener ∧ closer ∉ whole.withheld ∧
        ¬whole.Dangling kept closer := by
  have settled := mem_settled_iff first second
  have members : ∀ id ∈ rest.accepted, id ∈ part.accepted := fun id member =>
    ((second.accepted_iff id).mp member).1
  have opens : ∀ id ∈ rest.accepted, (rest.opens id ↔ whole.opens id) := fun id member =>
    (second.opens_iff id member).trans (first.opens_iff id (members id member))
  have closes : ∀ closer ∈ rest.accepted, ∀ opener,
      rest.closes closer opener ↔ whole.closes closer opener := fun closer member opener =>
    (second.closes_iff closer member opener).trans (first.closes_iff closer (members closer member) opener)
  constructor
  · intro met opener accepted clear opening supported
    have member := (settled opener).mpr ⟨accepted, clear, supported⟩
    obtain ⟨closer, kept, closing⟩ := met opener member ((opens opener member).mpr opening)
    obtain ⟨closerAccepted, closerClear, closerSupported⟩ := (settled closer).mp kept
    exact ⟨closer, closerAccepted, (closes closer kept opener).mp closing, closerClear,
      fun dangling => closerSupported closer dangling (whole.below_refl closer)⟩
  · intro condition opener member opening
    obtain ⟨accepted, clear, supported⟩ := (settled opener).mp member
    obtain ⟨closer, closerAccepted, closing, closerClear, sound⟩ :=
      condition opener accepted clear ((opens opener member).mp opening) supported
    have kept : closer ∈ rest.accepted := by
      refine (settled closer).mpr ⟨closerAccepted, closerClear, fun lost dangling path => ?_⟩
      rcases whole.below_closer closer opener lost closing path with same | path
      · exact sound (same ▸ dangling)
      · exact supported lost dangling path
    exact ⟨closer, kept, (closes closer kept opener).mpr closing⟩

end Settling

/-- Two settlings of one history that spare different members agree exactly when
each dangling obligation of one is above a dangling obligation of the other. -/
theorem settled_eq_iff {left right : Set Id} {leftPart leftRest rightPart rightRest : Obligations Id}
    (leftFirst : whole.Restricts leftPart (whole.withheld \ left))
    (leftSecond : leftPart.Restricts leftRest leftPart.withheld)
    (rightFirst : whole.Restricts rightPart (whole.withheld \ right))
    (rightSecond : rightPart.Restricts rightRest rightPart.withheld) :
    leftRest.accepted = rightRest.accepted ↔
      (∀ opener, whole.Dangling left opener →
        ∃ earlier, whole.Dangling right earlier ∧ whole.below earlier opener) ∧
      ∀ opener, whole.Dangling right opener →
        ∃ earlier, whole.Dangling left earlier ∧ whole.below earlier opener := by
  have settledLeft := mem_settled_iff leftFirst leftSecond
  have settledRight := mem_settled_iff rightFirst rightSecond
  -- A dangling obligation is settled on no side where it dangles.
  have lost : ∀ {mine other : Set Id} {mineRest otherRest : Obligations Id},
      (∀ id, id ∈ mineRest.accepted ↔ id ∈ whole.accepted ∧ id ∉ whole.withheld ∧
        ∀ opener, whole.Dangling mine opener → ¬whole.below opener id) →
      (∀ id, id ∈ otherRest.accepted ↔ id ∈ whole.accepted ∧ id ∉ whole.withheld ∧
        ∀ opener, whole.Dangling other opener → ¬whole.below opener id) →
      mineRest.accepted = otherRest.accepted → ∀ opener, whole.Dangling mine opener →
        ∃ earlier, whole.Dangling other earlier ∧ whole.below earlier opener := by
    intro mine other mineRest otherRest settledMine settledOther same opener dangling
    by_contra sound
    have kept : opener ∈ otherRest.accepted := (settledOther opener).mpr
      ⟨dangling.1, dangling.2.1, fun earlier dangles path => sound ⟨earlier, dangles, path⟩⟩
    rw [← same] at kept
    exact ((settledMine opener).mp kept).2.2 opener dangling (whole.below_refl opener)
  constructor
  · intro same
    exact ⟨lost settledLeft settledRight same, lost settledRight settledLeft same.symm⟩
  · rintro ⟨toRight, toLeft⟩
    ext id
    rw [settledLeft, settledRight]
    refine and_congr_right fun accepted => and_congr_right fun clear => ⟨?_, ?_⟩
    · intro supported opener dangling path
      obtain ⟨earlier, dangles, older⟩ := toLeft opener dangling
      exact supported earlier dangles (whole.below_trans _ _ _ older path)
    · intro supported opener dangling path
      obtain ⟨earlier, dangles, older⟩ := toRight opener dangling
      exact supported earlier dangles (whole.below_trans _ _ _ older path)

end Obligations

end Nook.Lib
