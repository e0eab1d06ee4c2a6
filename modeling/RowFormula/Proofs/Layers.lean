/-
# The layers of operators

The table of operators describes a grammar with one layer for each of its levels.  An
operator that groups to the left has an operand of its own layer on its left and a tighter
one on its right.  The operators in front of an operand make up a layer of their own, right
below the powers; a power has a bare operand on its left, but its right side may carry
operators in front.

Precedence climbing finds the trees of this grammar: every sequence of operands and operators
has exactly one of them, and grouping the sequence gives it.
-/

import RowFormula.Grammar.Precedence

namespace RowFormula.Grammar

variable {α β : Type}

/-- Changes the operand and keeps the operators in front of it. -/
def Signed.map (f : α → β) (x : Signed α) : Signed β := ⟨x.signs, f x.operand⟩

/-- Changes the operand on the right of an operator. -/
def mapLink (f : α → β) (link : Link α) : Link β := (link.1, link.2.map f)

/-- Changes all operands. -/
def Sequence.map (f : α → β) (s : Sequence α) : Sequence β :=
  ⟨s.first.map f, s.links.map (mapLink f)⟩

/-- How the operators of a sequence are grouped. -/
inductive Skeleton (α : Type) where
  | operand (x : α)
  | signed (s : Sign) (x : Skeleton α)
  | joined (op : InfixOp) (x y : Skeleton α)

namespace Skeleton

/-- The operand that comes first, with the operators in front of it. -/
def first : Skeleton α → Signed α
  | operand x => ⟨[], x⟩
  | signed s x => ⟨s :: x.first.signs, x.first.operand⟩
  | joined _ x _ => x.first

/-- What follows the first operand, from left to right. -/
def links : Skeleton α → List (Link α)
  | operand _ => []
  | signed _ x => x.links
  | joined op x y => x.links ++ (op, y.first) :: y.links

/-- The operands and operators from left to right. -/
def sequence (t : Skeleton α) : Sequence α := ⟨t.first, t.links⟩

/-- Changes all operands. -/
def map (f : α → β) : Skeleton α → Skeleton β
  | operand x => operand (f x)
  | signed s x => signed s (x.map f)
  | joined op x y => joined op (x.map f) (y.map f)

/-- The value of a grouping, given what the operators do. -/
def fold (sign : Sign → α → α) (join : InfixOp → α → α → α) : Skeleton α → α
  | operand x => x
  | signed s x => sign s (x.fold sign join)
  | joined op x y => join op (x.fold sign join) (y.fold sign join)

theorem first_map (f : α → β) (t : Skeleton α) : (t.map f).first = t.first.map f := by
  induction t with
  | operand => rfl
  | signed s x ih => rw [map, first, ih, first, Signed.map, Signed.map]
  | joined op x y ih => exact ih

theorem links_map (f : α → β) (t : Skeleton α) :
    (t.map f).links = t.links.map (mapLink f) := by
  induction t with
  | operand => rfl
  | signed s x ih => exact ih
  | joined op x y ihx ihy =>
      rw [map, links, ihx, ihy, first_map, links, List.map_append, List.map_cons, mapLink]

theorem sequence_map (f : α → β) (t : Skeleton α) : (t.map f).sequence = t.sequence.map f := by
  rw [sequence, first_map, links_map]
  rfl

theorem fold_map_operand (t : Skeleton α) : (t.map operand).fold signed joined = t := by
  induction t with
  | operand => rfl
  | signed s x ih => rw [map, fold, ih]
  | joined op x y ihx ihy => rw [map, fold, ihx, ihy]

end Skeleton

/-- The layers of the grammar of operators, from loose to tight. -/
inductive Layer where
  | disjunction
  | conjunction
  | equality
  | comparison
  | sum
  | product
  | signed
  | power
  | primary
  deriving DecidableEq, Repr

namespace Layer

/-- The operators of a layer that groups to the left. -/
def ops : Layer → List InfixOp
  | disjunction => [.logical .or]
  | conjunction => [.logical .and]
  | equality => [.comparison .eq, .comparison .ne]
  | comparison => [.comparison .lt, .comparison .le, .comparison .gt, .comparison .ge]
  | sum => [.arithmetic .add, .arithmetic .sub]
  | product => [.arithmetic .mul, .arithmetic .div, .arithmetic .mod]
  | signed => []
  | power => []
  | primary => []

/-- The next tighter layer. -/
def tighter : Layer → Layer
  | disjunction => conjunction
  | conjunction => equality
  | equality => comparison
  | comparison => sum
  | sum => product
  | product => signed
  | signed => power
  | power => primary
  | primary => primary

/-- The place of a layer, counted like the levels of the table. -/
def rank : Layer → Nat
  | disjunction => 1
  | conjunction => 2
  | equality => 3
  | comparison => 4
  | sum => 5
  | product => 6
  | signed => 7
  | power => 8
  | primary => 9

end Layer

/-- The trees of a layer. -/
inductive Layered : Layer → Skeleton α → Prop
  /-- A layer that groups to the left has trees of its own on the left of its operators. -/
  | binary {layer : Layer} {op : InfixOp} {x y : Skeleton α} :
      op ∈ layer.ops → Layered layer x → Layered layer.tighter y → Layered layer (.joined op x y)
  | signed {s : Sign} {x : Skeleton α} : Layered .signed x → Layered .signed (.signed s x)
  /-- Powers group to the right, and past operators in front. -/
  | power {x y : Skeleton α} :
      Layered .primary x → Layered .signed y → Layered .power (.joined .power x y)
  | operand {x : α} : Layered .primary (.operand x)
  | ofTighter {layer : Layer} {x : Skeleton α} : Layered layer.tighter x → Layered layer x

/-! ### Layers as numbers -/

/-- The level that the operand on the left of an operator has at least. -/
def leftLevel (op : InfixOp) : Nat :=
  match side op with
  | .left => strength op
  | .right => strength op + 1

/-- The level that the operand on the right of an operator has at least.  Operators in front
of it do not matter, however tightly the operator binds. -/
def rightLevel (op : InfixOp) : Nat :=
  min (rightBound op + 1) frontStrength

namespace Skeleton

/-- How tightly the root of a grouping binds. -/
def level : Skeleton α → Nat
  | operand _ => Layer.rank .primary
  | signed _ _ => frontStrength
  | joined op _ _ => strength op

/-- All operands bind as tightly as their operators ask for. -/
inductive Proper : Skeleton α → Prop
  | operand {x : α} : Proper (.operand x)
  | signed {s : Sign} {x : Skeleton α} :
      frontStrength ≤ x.level → Proper x → Proper (.signed s x)
  | joined {op : InfixOp} {x y : Skeleton α} :
      leftLevel op ≤ x.level → rightLevel op ≤ y.level → Proper x → Proper y →
      Proper (.joined op x y)

@[simp]
theorem level_map (f : α → β) (t : Skeleton α) : (t.map f).level = t.level := by
  cases t <;> rfl

@[simp]
theorem proper_map {f : α → β} {t : Skeleton α} : (t.map f).Proper ↔ t.Proper := by
  induction t with
  | operand x => exact ⟨fun _ => .operand, fun _ => .operand⟩
  | signed s x ih =>
      constructor
      · intro h
        cases h with
        | signed hx hproper => exact .signed (by rwa [level_map] at hx) (ih.1 hproper)
      · intro h
        cases h with
        | signed hx hproper => exact .signed (by rwa [level_map]) (ih.2 hproper)
  | joined op x y ihx ihy =>
      constructor
      · intro h
        cases h with
        | joined hx hy hx' hy' =>
            rw [level_map] at hx hy
            exact .joined hx hy (ihx.1 hx') (ihy.1 hy')
      · intro h
        cases h with
        | joined hx hy hx' hy' =>
            rw [← level_map f] at hx hy
            exact .joined hx hy (ihx.2 hx') (ihy.2 hy')

end Skeleton

section Table

theorem frontStrength_eq : frontStrength = 7 := rfl

theorem strength_power : strength .power = 8 := rfl

theorem leftLevel_power : leftLevel .power = 9 := rfl

theorem rightBound_power : rightBound .power = 7 := rfl

/-- All operators but the powers group to the left and bind less tightly than those in
front of an operand. -/
theorem strength_of_ne_power {op : InfixOp} (h : op ≠ InfixOp.power) :
    0 < strength op ∧ strength op ≤ 6 ∧ leftLevel op = strength op ∧
      rightBound op = strength op := by
  revert h
  rcases op with op | op | op <;> cases op <;> decide

/-- The layers that group to the left have the operators of the level of their rank. -/
theorem mem_ops_iff {layer : Layer} {op : InfixOp} :
    op ∈ layer.ops ↔ op ≠ InfixOp.power ∧ strength op = layer.rank := by
  cases layer <;> rcases op with op | op | op <;> cases op <;> decide

theorem exists_mem_ops {op : InfixOp} (h : op ≠ InfixOp.power) :
    ∃ layer : Layer, op ∈ layer.ops := by
  rcases op with op | op | op
  · cases op with
    | add | sub => exact ⟨.sum, by decide⟩
    | mul | div | mod => exact ⟨.product, by decide⟩
    | pow => exact absurd rfl h
  · cases op with
    | eq | ne => exact ⟨.equality, by decide⟩
    | lt | le | gt | ge => exact ⟨.comparison, by decide⟩
  · cases op with
    | and => exact ⟨.conjunction, by decide⟩
    | or => exact ⟨.disjunction, by decide⟩

theorem rank_tighter {layer : Layer} (h : layer.rank < 9) :
    layer.tighter.rank = layer.rank + 1 := by
  revert h
  cases layer <;> decide

theorem rank_le_nine (layer : Layer) : layer.rank ≤ 9 := by
  cases layer <;> decide

theorem rank_le_rank_tighter (layer : Layer) : layer.rank ≤ layer.tighter.rank := by
  cases layer <;> decide

theorem rank_injective {layer other : Layer} (h : layer.rank = other.rank) : layer = other := by
  revert h
  cases layer <;> cases other <;> decide

end Table

/-! ### Trees of a layer -/

/-- Trees of a layer are trees of every looser layer. -/
theorem Layered.of_rank_le {layer tight : Layer} {t : Skeleton α} (ht : Layered tight t)
    (h : layer.rank ≤ tight.rank) : Layered layer t := by
  generalize hgap : tight.rank - layer.rank = gap
  induction gap generalizing layer with
  | zero =>
      obtain rfl := rank_injective (Nat.le_antisymm h (Nat.le_of_sub_eq_zero hgap))
      exact ht
  | succ gap ih =>
      have htighter : layer.tighter.rank = layer.rank + 1 := by
        have := rank_le_nine tight
        exact rank_tighter (by omega)
      exact .ofTighter (ih (by omega) (by omega))

theorem Layered.proper {layer : Layer} {t : Skeleton α} (ht : Layered layer t) :
    layer.rank ≤ t.level ∧ t.Proper := by
  induction ht with
  | @binary layer op x y hop _ _ ihx ihy =>
      obtain ⟨hpower, hstrength⟩ := mem_ops_iff.1 hop
      obtain ⟨-, hsix, hleft, hright⟩ := strength_of_ne_power hpower
      have htighter := rank_tighter (show layer.rank < 9 by omega)
      refine ⟨Nat.le_of_eq hstrength.symm, .joined ?_ ?_ ihx.2 ihy.2⟩
      · rw [hleft, hstrength]
        exact ihx.1
      · rw [rightLevel, hright, hstrength, ← htighter]
        exact Nat.le_trans (Nat.min_le_left _ _) ihy.1
  | signed _ ih => exact ⟨Nat.le_refl _, .signed ih.1 ih.2⟩
  | power _ _ ihx ihy => exact ⟨Nat.le_refl _, .joined ihx.1 ihy.1 ihx.2 ihy.2⟩
  | operand => exact ⟨Nat.le_refl _, .operand⟩
  | ofTighter _ ih => exact ⟨Nat.le_trans (rank_le_rank_tighter _) ih.1, ih.2⟩

theorem Skeleton.Proper.layered {layer : Layer} {t : Skeleton α} (ht : t.Proper)
    (h : layer.rank ≤ t.level) : Layered layer t := by
  induction ht generalizing layer with
  | operand => exact Layered.operand.of_rank_le h
  | signed hx _ ih => exact (Layered.signed (ih hx)).of_rank_le h
  | @joined op x y hx hy _ _ ihx ihy =>
      by_cases hpower : op = InfixOp.power
      · subst hpower
        exact (Layered.power (ihx hx) (ihy hy)).of_rank_le h
      · obtain ⟨own, hown⟩ := exists_mem_ops hpower
        obtain ⟨-, hstrength⟩ := mem_ops_iff.1 hown
        obtain ⟨-, hsix, hleft, hright⟩ := strength_of_ne_power hpower
        have htighter := rank_tighter (show own.rank < 9 by omega)
        rw [hleft, hstrength] at hx
        rw [rightLevel, hright, frontStrength_eq, Nat.min_eq_left (by omega), hstrength,
          ← htighter] at hy
        refine (Layered.binary hown (ihx hx) (ihy hy)).of_rank_le ?_
        rw [← hstrength]
        exact h

/-- Trees of any level are trees of the loosest layer. -/
theorem Skeleton.Proper.loosest {t : Skeleton α} (ht : t.Proper) : Layered .disjunction t := by
  refine ht.layered ?_
  cases t with
  | operand => exact show 1 ≤ 9 by decide
  | signed => exact show 1 ≤ 7 by decide
  | joined op =>
      show 1 ≤ strength op
      rcases op with op | op | op <;> cases op <;> decide

/-! ### Climbing -/

section Climbing

variable (sign : Sign → α → α) (join : InfixOp → α → α → α)

/-- What climbing takes, and what it leaves. -/
def climbed (bound : Nat) (x : Signed α) (links : List (Link α)) : α × List (Link α) :=
  ((climb sign join bound x links).1, (climb sign join bound x links).2.1)

/-- What goes on behind an operand, and what it leaves. -/
def extended (bound : Nat) (x : α) (links : List (Link α)) : α × List (Link α) :=
  ((extend sign join bound x links).1, (extend sign join bound x links).2.1)

variable {sign join} {bound : Nat} {x : α} {links : List (Link α)}

theorem climbed_nil : climbed sign join bound ⟨[], x⟩ links = extended sign join bound x links := by
  rw [climbed, climb]
  rfl

theorem climbed_cons {s : Sign} {signs : List Sign} :
    climbed sign join bound ⟨s :: signs, x⟩ links =
      extended sign join bound
        (sign s (climbed sign join (frontStrength - 1) ⟨signs, x⟩ links).1)
        (climbed sign join (frontStrength - 1) ⟨signs, x⟩ links).2 := by
  rw [climbed, climb]
  rfl

theorem extended_nil : extended sign join bound x [] = (x, []) := by
  rw [extended, extend]

theorem extended_of_lt {op : InfixOp} {next : Signed α} (h : bound < strength op) :
    extended sign join bound x ((op, next) :: links) =
      extended sign join bound
        (join op x (climbed sign join (rightBound op) next links).1)
        (climbed sign join (rightBound op) next links).2 := by
  rw [extended, extend]
  simp only [if_pos h]
  rfl

theorem extended_of_le {op : InfixOp} {next : Signed α} (h : strength op ≤ bound) :
    extended sign join bound x ((op, next) :: links) = (x, (op, next) :: links) := by
  rw [extended, extend]
  simp only [if_neg (Nat.not_lt.2 h)]

end Climbing

/-- Every operator at the head of the links may have an operand of some level on its
left. -/
def Admits (level : Nat) (links : List (Link α)) : Prop :=
  ∀ link ∈ links.head?, leftLevel link.1 ≤ level

/-- No operator at the head of the links binds tighter than the bound. -/
def Stops (bound : Nat) (links : List (Link α)) : Prop :=
  ∀ link ∈ links.head?, strength link.1 ≤ bound

section Heads

variable {links : List (Link α)} {level bound : Nat}

theorem Admits.mono {higher : Nat} (h : Admits level links) (hle : level ≤ higher) :
    Admits higher links :=
  fun link hlink => Nat.le_trans (h link hlink) hle

theorem admits_cons {link : Link α} :
    Admits level (link :: links) ↔ leftLevel link.1 ≤ level := by
  simp [Admits]

theorem stops_cons {link : Link α} : Stops bound (link :: links) ↔ strength link.1 ≤ bound := by
  simp [Stops]

/-- Below the powers, what may follow a tree is what does not bind tighter. -/
theorem Admits.stops (h : Admits level links) (hlevel : level ≤ 8) : Stops (min level 6) links := by
  intro link hlink
  have hle := h link hlink
  by_cases hpower : link.1 = InfixOp.power
  · rw [hpower, leftLevel_power] at hle
    omega
  · obtain ⟨-, hsix, hleft, -⟩ := strength_of_ne_power hpower
    omega

theorem Stops.admits (h : Stops bound links) (hbound : bound ≤ 7) (hlevel : min bound 6 ≤ level) :
    Admits level links := by
  intro link hlink
  have hle := h link hlink
  by_cases hpower : link.1 = InfixOp.power
  · rw [hpower, strength_power] at hle
    omega
  · obtain ⟨-, hsix, hleft, -⟩ := strength_of_ne_power hpower
    omega

theorem Stops.mono {higher : Nat} (h : Stops bound links) (hle : bound ≤ higher) :
    Stops higher links :=
  fun link hlink => Nat.le_trans (h link hlink) hle

/-- Nothing is taken from links at whose head the bound stops. -/
theorem extended_of_stops {sign : Sign → α → α} {join : InfixOp → α → α → α} {x : α}
    (h : Stops bound links) : extended sign join bound x links = (x, links) := by
  cases links with
  | nil => exact extended_nil
  | cons link links => exact extended_of_le (stops_cons.1 h)

end Heads

/-- The operators that group to the left, and the powers. -/
theorem strength_eq_or (op : InfixOp) :
    (strength op ≤ 6 ∧ 0 < strength op ∧ leftLevel op = strength op ∧
        rightBound op = strength op) ∨
      (strength op = 8 ∧ leftLevel op = 9 ∧ rightBound op = 7) := by
  by_cases hpower : op = InfixOp.power
  · subst hpower
    exact .inr ⟨strength_power, leftLevel_power, rightBound_power⟩
  · obtain ⟨hpos, hsix, hleft, hright⟩ := strength_of_ne_power hpower
    exact .inl ⟨hsix, hpos, hleft, hright⟩

/-- Climbing through the sequence of a properly grouped tree computes the value of the tree
and goes on behind it.  The induction is on the tree. -/
theorem climbed_of_proper {sign : Sign → α → α} {join : InfixOp → α → α → α} {t : Skeleton α}
    (ht : t.Proper) {bound : Nat} {rest : List (Link α)} (hbound : bound ≤ 7)
    (hlevel : min (bound + 1) frontStrength ≤ t.level) (hrest : Admits t.level rest) :
    climbed sign join bound t.first (t.links ++ rest) =
      extended sign join bound (t.fold sign join) rest := by
  rw [frontStrength_eq] at hlevel
  induction ht generalizing bound rest with
  | operand => exact climbed_nil
  | @signed s x hx hproper ih =>
      rw [frontStrength_eq] at hx
      have hstops : Stops 6 rest := hrest.stops (show 7 ≤ 8 by decide)
      have hinner := @ih 6 rest (by decide) (by omega) (hrest.mono hx)
      rw [extended_of_stops hstops] at hinner
      rw [Skeleton.first, Skeleton.links, climbed_cons, frontStrength_eq, hinner, Skeleton.fold]
  | @joined op x y hx hy _ _ ihx ihy =>
      rw [rightLevel, frontStrength_eq] at hy
      rw [Skeleton.level] at hlevel hrest
      have hop := strength_eq_or op
      have hstops : Stops (rightBound op) rest :=
        (hrest.stops (by omega)).mono (by omega)
      have hright := @ihy (rightBound op) rest (by omega) hy
        (hstops.admits (by omega) (by omega))
      rw [extended_of_stops hstops] at hright
      have hlinks : (Skeleton.joined op x y).links ++ rest =
          x.links ++ ((op, y.first) :: (y.links ++ rest)) := by
        simp [Skeleton.links]
      rw [Skeleton.first, hlinks, ihx hbound (by omega) (admits_cons.2 hx),
        extended_of_lt (by omega), hright, Skeleton.fold]

/-! ### Every sequence has one tree -/

/-- A tree for the beginning of a sequence, up to an operator at which the bound stops. -/
def Groups (bound : Nat) (x : Signed α) (links : List (Link α)) : Prop :=
  ∃ (t : Skeleton α) (rest : List (Link α)), t.Proper ∧ min (bound + 1) frontStrength ≤ t.level ∧
    t.first = x ∧ t.links ++ rest = links ∧ Stops bound rest

/-- A tree can be extended by what follows it.  The induction is on the number of links;
the operands on the right of operators have fewer links than the whole. -/
theorem exists_extended {count : Nat}
    (hgroups : ∀ (bound : Nat) (x : Signed α) (links : List (Link α)), bound ≤ 7 →
      links.length < count → Groups bound x links)
    {bound : Nat} {links : List (Link α)} {t : Skeleton α} (hbound : bound ≤ 7)
    (hcount : links.length ≤ count) (ht : t.Proper)
    (hlevel : min (bound + 1) frontStrength ≤ t.level) (hadmits : Admits t.level links) :
    Groups bound t.first (t.links ++ links) := by
  induction hn : links.length using Nat.strongRecOn generalizing links t with
  | ind n ih =>
      cases links with
      | nil => exact ⟨t, [], ht, hlevel, rfl, rfl, nofun⟩
      | cons link links =>
          obtain ⟨op, next⟩ := link
          by_cases hop : strength op ≤ bound
          · exact ⟨t, _, ht, hlevel, rfl, rfl, stops_cons.2 hop⟩
          · have hcases := strength_eq_or op
            rw [List.length_cons] at hcount hn
            obtain ⟨y, rest, hy, hylevel, rfl, rfl, hstops⟩ :=
              hgroups (rightBound op) next links (by omega) (by omega)
            have hjoined : (Skeleton.joined op t y).Proper :=
              .joined (admits_cons.1 hadmits) hylevel ht hy
            have hlength : rest.length ≤ (y.links ++ rest).length := by
              rw [List.length_append]
              exact Nat.le_add_left _ _
            have hfurther := ih rest.length (by omega) (by omega) hjoined
              (by rw [Skeleton.level, frontStrength_eq]; omega)
              (hstops.admits (by omega) (by rw [Skeleton.level]; omega)) rfl
            rwa [Skeleton.first, Skeleton.links, List.append_assoc, List.cons_append] at hfurther

theorem exists_climbed (bound : Nat) (x : Signed α) (links : List (Link α)) (hbound : bound ≤ 7) :
    Groups bound x links := by
  induction hn : links.length using Nat.strongRecOn generalizing bound x links with
  | ind n ih =>
      have hgroups : ∀ (bound : Nat) (x : Signed α) (links : List (Link α)), bound ≤ 7 →
          links.length < n → Groups bound x links :=
        fun bound x links hbound hlength => ih links.length hlength bound x links hbound rfl
      obtain ⟨signs, x⟩ := x
      induction signs generalizing bound with
      | nil =>
          have hadmits : Admits (Skeleton.operand x).level links := by
            intro link _
            have := strength_eq_or link.1
            rw [Skeleton.level, Layer.rank]
            omega
          exact exists_extended hgroups hbound (Nat.le_of_eq hn) .operand
            (Nat.le_trans (Nat.min_le_right _ _) (show frontStrength ≤ 9 by decide)) hadmits
      | cons s signs ihsigns =>
          obtain ⟨t, rest, ht, hlevel, hfirst, rfl, hstops⟩ := ihsigns 6 (by decide)
          have hlength : rest.length ≤ (t.links ++ rest).length := by
            rw [List.length_append]
            exact Nat.le_add_left _ _
          have hsigned := exists_extended hgroups hbound (by omega)
            (Skeleton.Proper.signed (s := s) hlevel ht) (Nat.min_le_right _ _)
            (hstops.admits (by decide) (show min 6 6 ≤ frontStrength by decide))
          rwa [Skeleton.first, Skeleton.links, hfirst] at hsigned

/-- Every sequence of operands and operators is that of a tree of the loosest layer. -/
theorem exists_layered (s : Sequence α) :
    ∃ t : Skeleton α, t.sequence = s ∧ Layered .disjunction t := by
  obtain ⟨t, rest, ht, hlevel, hfirst, hlinks, hstops⟩ :=
    exists_climbed 0 s.first s.links (by decide)
  have hrest : rest = [] := by
    cases rest with
    | nil => rfl
    | cons link rest =>
        have := stops_cons.1 hstops
        have := strength_eq_or link.1
        omega
  subst hrest
  rw [List.append_nil] at hlinks
  refine ⟨t, ?_, ht.layered hlevel⟩
  rw [Skeleton.sequence, hfirst, hlinks]

/-- Grouping a sequence computes the value of its tree. -/
theorem grouped_sequence {sign : Sign → α → α} {join : InfixOp → α → α → α} {t : Skeleton α}
    (ht : Layered .disjunction t) : grouped sign join t.sequence = t.fold sign join := by
  obtain ⟨hlevel, hproper⟩ := ht.proper
  have hclimbed := @climbed_of_proper α sign join t hproper 0 [] (by decide) hlevel nofun
  rw [List.append_nil, extended_nil] at hclimbed
  exact congrArg Prod.fst hclimbed

/-- The operands of a sequence, without any operators. -/
def Sequence.operands (s : Sequence α) : List α :=
  s.first.operand :: s.links.map fun link => link.2.operand

theorem Sequence.operands_map (f : α → β) (s : Sequence α) :
    (s.map f).operands = s.operands.map f := by
  simp only [operands, map, List.map_cons, List.map_map]
  rfl

theorem Skeleton.operands_joined (op : InfixOp) (x y : Skeleton α) :
    (joined op x y).sequence.operands = x.sequence.operands ++ y.sequence.operands := by
  simp only [Sequence.operands, sequence, first, links, List.map_append, List.map_cons,
    List.cons_append]

/-- What holds of all operands and is kept by the operators holds of the value. -/
theorem Skeleton.fold_induct {P : α → Prop} {sign : Sign → α → α} {join : InfixOp → α → α → α}
    (hsign : ∀ s x, P x → P (sign s x)) (hjoin : ∀ op x y, P x → P y → P (join op x y))
    {t : Skeleton α} (h : ∀ x ∈ t.sequence.operands, P x) : P (t.fold sign join) := by
  induction t with
  | operand x => exact h x (.head _)
  | signed s x ih => exact hsign s _ (ih h)
  | joined op x y ihx ihy =>
      rw [operands_joined, List.forall_mem_append] at h
      exact hjoin op _ _ (ihx h.1) (ihy h.2)

theorem grouped_induct {P : α → Prop} {sign : Sign → α → α} {join : InfixOp → α → α → α}
    (hsign : ∀ s x, P x → P (sign s x)) (hjoin : ∀ op x y, P x → P y → P (join op x y))
    {s : Sequence α} (h : ∀ x ∈ s.operands, P x) : P (grouped sign join s) := by
  obtain ⟨t, rfl, hlayered⟩ := exists_layered s
  rw [grouped_sequence hlayered]
  exact Skeleton.fold_induct hsign hjoin h

theorem layered_map {f : α → β} {layer : Layer} {t : Skeleton α} :
    Layered layer (t.map f) ↔ Layered layer t := by
  constructor
  · intro h
    obtain ⟨hlevel, hproper⟩ := h.proper
    rw [Skeleton.level_map] at hlevel
    exact (Skeleton.proper_map.1 hproper).layered hlevel
  · intro h
    obtain ⟨hlevel, hproper⟩ := h.proper
    rw [← Skeleton.level_map f] at hlevel
    exact (Skeleton.proper_map.2 hproper).layered hlevel

/-- What relates all operands and is kept by the operators on both sides relates the values. -/
theorem Skeleton.fold_relates {γ : Type} {R : β → γ → Prop} {sign : Sign → β → β}
    {sign' : Sign → γ → γ} {join : InfixOp → β → β → β} {join' : InfixOp → γ → γ → γ}
    (hsign : ∀ s x y, R x y → R (sign s x) (sign' s y))
    (hjoin : ∀ op x y x' y', R x x' → R y y' → R (join op x y) (join' op x' y'))
    {f : α → β} {g : α → γ} {t : Skeleton α} (h : ∀ a ∈ t.sequence.operands, R (f a) (g a)) :
    R ((t.map f).fold sign join) ((t.map g).fold sign' join') := by
  induction t with
  | operand a => exact h a (.head _)
  | signed s x ih => exact hsign s _ _ (ih h)
  | joined op x y ihx ihy =>
      rw [operands_joined, List.forall_mem_append] at h
      exact hjoin op _ _ _ _ (ihx h.1) (ihy h.2)

theorem grouped_relates {γ : Type} {R : β → γ → Prop} {sign : Sign → β → β}
    {sign' : Sign → γ → γ} {join : InfixOp → β → β → β} {join' : InfixOp → γ → γ → γ}
    (hsign : ∀ s x y, R x y → R (sign s x) (sign' s y))
    (hjoin : ∀ op x y x' y', R x x' → R y y' → R (join op x y) (join' op x' y'))
    {f : α → β} {g : α → γ} {s : Sequence α} (h : ∀ a ∈ s.operands, R (f a) (g a)) :
    R (grouped sign join (s.map f)) (grouped sign' join' (s.map g)) := by
  obtain ⟨t, rfl, hlayered⟩ := exists_layered s
  rw [← Skeleton.sequence_map, ← Skeleton.sequence_map, grouped_sequence (layered_map.2 hlayered),
    grouped_sequence (layered_map.2 hlayered)]
  exact Skeleton.fold_relates hsign hjoin h

/-- A sequence has no more than one tree: grouping it gives the tree back. -/
theorem Layered.eq_of_sequence_eq {t u : Skeleton α} (ht : Layered .disjunction t)
    (hu : Layered .disjunction u) (h : t.sequence = u.sequence) : t = u := by
  have hgrouped : ∀ {v : Skeleton α}, Layered .disjunction v →
      grouped Skeleton.signed Skeleton.joined (v.sequence.map .operand) = v := by
    intro v hv
    rw [← Skeleton.sequence_map, grouped_sequence (layered_map.2 hv), Skeleton.fold_map_operand]
  rw [← hgrouped ht, h, hgrouped hu]

/-- Every sequence has exactly one tree of the loosest layer. -/
theorem exists_unique_layered (s : Sequence α) :
    ∃ t : Skeleton α, (t.sequence = s ∧ Layered .disjunction t) ∧
      ∀ u : Skeleton α, u.sequence = s → Layered .disjunction u → u = t := by
  obtain ⟨t, hsequence, hlayered⟩ := exists_layered s
  refine ⟨t, ⟨hsequence, hlayered⟩, fun u hu hlayered' => ?_⟩
  exact hlayered'.eq_of_sequence_eq hlayered (hu.trans hsequence.symm)

end RowFormula.Grammar
