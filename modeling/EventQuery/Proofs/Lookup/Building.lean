import EventQuery.Lookup.Operator
import EventQuery.Proofs.Eval.Compile

/-!
How plans and operators are built, taken apart: which plan each kind of classified condition has and
which operator each kind of container, from which compiled parts, and between which counts of cells
the parts are compiled.
-/

namespace EventQuery

open Allot

namespace Plan

variable {context : Context} {capability : Capability} {info : MatchLayout} {n m : Nat}
  {isFirst : Bool} {e : Expr} {c : Code} {p : Plan} {verifier : Option Code}

theorem lookup_eq_ok {name : String} {op : Comparison} :
    Plan.lookup capability name op c n = .ok (p, m) ↔
      ∃ position, capability.definition.position name = some position ∧
        p = .compare name op position c ∧ m = n := by
  cases hposition : capability.definition.position name <;>
    simp [Plan.lookup, hposition, pure_eq_ok, throw_eq_ok]

theorem condition_eq {c' : Code} (he : Compile.Compiles context info.layout e c)
    (h : condition context info e n = .ok (c', m)) : c' = c := he.condition_eq (mapError_eq_ok.1 h)

/-- Inner nodes have no verifier. -/
theorem verifierFor_inner :
    verifierFor context info false e n = .ok (verifier, m) ↔ verifier = none ∧ m = n := by
  rw [verifierFor, if_neg Bool.false_ne_true, pure_eq_ok]

/-- Outermost nodes are verified by the whole condition. -/
theorem verifierFor_outermost :
    verifierFor context info true e n = .ok (verifier, m) ↔
      ∃ c, condition context info e n = .ok (c, m) ∧ verifier = some c := by
  rw [verifierFor, if_pos rfl, bind_eq_ok]
  simp only [pure_eq_ok]
  constructor
  · rintro ⟨c, k, hc, hverifier, rfl⟩
    exact ⟨c, hc, hverifier⟩
  · rintro ⟨c, hc, hverifier⟩
    exact ⟨c, m, hc, hverifier, rfl⟩

theorem verifierFor_eq (he : Compile.Compiles context info.layout e c)
    (h : verifierFor context info isFirst e n = .ok (verifier, m)) :
    verifier = if isFirst then some c else none := by
  cases isFirst with
  | false => exact (verifierFor_inner.1 h).1
  | true =>
      obtain ⟨c', hc', rfl⟩ := verifierFor_outermost.1 h
      rw [condition_eq he hc']
      rfl

/-- What a classified condition is built into: a plan, with the number of cells allotted before it
and after it. Of the tests that choose between two plans it keeps whether a side of a conjunction
depends on the store. -/
inductive Built (context : Context) (capability : Capability) (info : MatchLayout) :
    Classified → Bool → Nat → Plan → Nat → Prop
  | gate {e : Expr} {c : Code} {isFirst : Bool} {n m : Nat}
      (tested : condition context info e n = .ok (c, m)) :
      Built context capability info (.independent e) isFirst n (.gate c) m
  | scan {e : Expr} {verifier : Option Code} {isFirst : Bool} {n m : Nat}
      (verified : verifierFor context info isFirst e n = .ok (verifier, m)) :
      Built context capability info (.exhaustive e) isFirst n (.scan verifier) m
  | truth {e : Expr} {name : String} {position : Nat} {isFirst : Bool} {n : Nat}
      (found : capability.definition.position name = some position) :
      Built context capability info (.named e name) isFirst n
        (.compare name .equal position (.const (.bool true))) n
  | readAll {e : Expr} {name : String} {c : Code} {isFirst : Bool} {n m : Nat}
      (tested : condition context info e n = .ok (c, m)) :
      Built context capability info (.named e name) isFirst n (.scan (some c)) m
  | lookup {e value : Expr} {name : String} {op : Comparison} {position : Nat} {v : Code}
      {isFirst : Bool} {n m : Nat} (probe : Compile.code context value info.layout n = .ok (v, m))
      (found : capability.definition.position name = some position) :
      Built context capability info (.compare e name op value) isFirst n
        (.compare name op position v) m
  | isNull {e : Expr} {name : String} {isFirst : Bool} {n : Nat} :
      Built context capability info (.isNull e name) isFirst n (.isNull name) n
  | gatedLeft {e : Expr} {l r : Classified} {gate : Code} {p : Plan} {isFirst : Bool}
      {n k m : Nat} (independent : l.scope = .independent)
      (tested : condition context info l.expr n = .ok (gate, k))
      (guarded : Built context capability info r isFirst k p m) :
      Built context capability info (.and e l r) isFirst n (.gated gate p) m
  | gatedRight {e : Expr} {l r : Classified} {gate : Code} {p : Plan} {isFirst : Bool}
      {n k m : Nat} (independent : r.scope = .independent)
      (tested : condition context info r.expr n = .ok (gate, k))
      (guarded : Built context capability info l isFirst k p m) :
      Built context capability info (.and e l r) isFirst n (.gated gate p) m
  | both {e : Expr} {l r : Classified} {p q : Plan} {verifier : Option Code}
      {isFirst : Bool} {n i j m : Nat} (leftReads : l.scope ≠ .independent)
      (rightReads : r.scope ≠ .independent)
      (left : Built context capability info l false n p i)
      (right : Built context capability info r false i q j)
      (verified : verifierFor context info isFirst e j = .ok (verifier, m)) :
      Built context capability info (.and e l r) isFirst n (.both p q verifier) m
  | narrowedLeft {e : Expr} {l r : Classified} {p : Plan} {verifier : Option Code}
      {isFirst : Bool} {n k m : Nat} (rightReads : r.scope ≠ .independent)
      (indexed : Built context capability info l false n p k)
      (verified : verifierFor context info isFirst e k = .ok (verifier, m)) :
      Built context capability info (.and e l r) isFirst n (.narrowed p verifier) m
  | narrowedRight {e : Expr} {l r : Classified} {p : Plan} {verifier : Option Code}
      {isFirst : Bool} {n k m : Nat} (leftReads : l.scope ≠ .independent)
      (indexed : Built context capability info r false n p k)
      (verified : verifierFor context info isFirst e k = .ok (verifier, m)) :
      Built context capability info (.and e l r) isFirst n (.narrowed p verifier) m
  | either {e : Expr} {l r : Classified} {p q : Plan} {verifier : Option Code}
      {isFirst : Bool} {n i j m : Nat} (left : Built context capability info l isFirst n p i)
      (right : Built context capability info r isFirst i q j)
      (verified : verifierFor context info isFirst e j = .ok (verifier, m)) :
      Built context capability info (.or e l r) isFirst n (.either p q verifier) m
  | complement {e : Expr} {inner : Classified} {p : Plan} {verifier : Option Code}
      {isFirst : Bool} {n k m : Nat} (operand : Built context capability info inner isFirst n p k)
      (verified : verifierFor context info isFirst e k = .ok (verifier, m)) :
      Built context capability info (.not e inner) isFirst n (.complement p verifier) m

/-- A plan is built node for node, and every cell is allotted on the way. -/
theorem built_of_build {cl : Classified} :
    ∀ {isFirst : Bool} {n m : Nat} {p : Plan},
      build context capability info cl isFirst n = .ok (p, m) →
      Built context capability info cl isFirst n p m := by
  induction cl with
  | independent e =>
      intro isFirst n m p hp
      obtain ⟨c, k, hc, hp⟩ := bind_eq_ok.1 hp
      obtain ⟨rfl, rfl⟩ := pure_eq_ok.1 hp
      exact .gate hc
  | exhaustive e =>
      intro isFirst n m p hp
      obtain ⟨verifier, k, hverifier, hp⟩ := bind_eq_ok.1 hp
      obtain ⟨rfl, rfl⟩ := pure_eq_ok.1 hp
      exact .scan hverifier
  | named e name =>
      intro isFirst n m p hp
      simp only [build] at hp
      split at hp
      · obtain ⟨position, hposition, rfl, rfl⟩ := lookup_eq_ok.1 hp
        exact .truth hposition
      · obtain ⟨c, k, hc, hp⟩ := bind_eq_ok.1 hp
        obtain ⟨rfl, rfl⟩ := pure_eq_ok.1 hp
        exact .readAll hc
  | compare e name op value =>
      intro isFirst n m p hp
      obtain ⟨v, k, hv, hp⟩ := bind_eq_ok.1 hp
      obtain ⟨position, hposition, rfl, rfl⟩ := lookup_eq_ok.1 hp
      exact .lookup (mapError_eq_ok.1 hv) hposition
  | isNull e name =>
      intro isFirst n m p hp
      obtain ⟨rfl, rfl⟩ := pure_eq_ok.1 hp
      exact .isNull
  | and e l r ihl ihr =>
      intro isFirst n m p hp
      simp only [build] at hp
      split at hp
      · obtain ⟨gate, _, hgate, hp⟩ := bind_eq_ok.1 hp
        obtain ⟨inner, _, hinner, hp⟩ := bind_eq_ok.1 hp
        obtain ⟨rfl, rfl⟩ := pure_eq_ok.1 hp
        exact .gatedLeft ‹_› hgate (ihr hinner)
      split at hp
      · obtain ⟨gate, _, hgate, hp⟩ := bind_eq_ok.1 hp
        obtain ⟨inner, _, hinner, hp⟩ := bind_eq_ok.1 hp
        obtain ⟨rfl, rfl⟩ := pure_eq_ok.1 hp
        exact .gatedRight ‹_› hgate (ihl hinner)
      split at hp
      · obtain ⟨left, _, hleft, hp⟩ := bind_eq_ok.1 hp
        obtain ⟨right, _, hright, hp⟩ := bind_eq_ok.1 hp
        obtain ⟨verifier, _, hverifier, hp⟩ := bind_eq_ok.1 hp
        obtain ⟨rfl, rfl⟩ := pure_eq_ok.1 hp
        exact .both ‹_› ‹_› (ihl hleft) (ihr hright) hverifier
      split at hp
      · obtain ⟨indexed, _, hindexed, hp⟩ := bind_eq_ok.1 hp
        obtain ⟨verifier, _, hverifier, hp⟩ := bind_eq_ok.1 hp
        obtain ⟨rfl, rfl⟩ := pure_eq_ok.1 hp
        exact .narrowedLeft ‹_› (ihl hindexed) hverifier
      split at hp
      · obtain ⟨indexed, _, hindexed, hp⟩ := bind_eq_ok.1 hp
        obtain ⟨verifier, _, hverifier, hp⟩ := bind_eq_ok.1 hp
        obtain ⟨rfl, rfl⟩ := pure_eq_ok.1 hp
        exact .narrowedRight ‹_› (ihr hindexed) hverifier
      · exact (throw_eq_ok.1 hp).elim
  | or e l r ihl ihr =>
      intro isFirst n m p hp
      obtain ⟨left, _, hleft, hp⟩ := bind_eq_ok.1 hp
      obtain ⟨right, _, hright, hp⟩ := bind_eq_ok.1 hp
      obtain ⟨verifier, _, hverifier, hp⟩ := bind_eq_ok.1 hp
      obtain ⟨rfl, rfl⟩ := pure_eq_ok.1 hp
      exact .either (ihl hleft) (ihr hright) hverifier
  | not e inner ih =>
      intro isFirst n m p hp
      obtain ⟨inner', _, hinner, hp⟩ := bind_eq_ok.1 hp
      obtain ⟨verifier, _, hverifier, hp⟩ := bind_eq_ok.1 hp
      obtain ⟨rfl, rfl⟩ := pure_eq_ok.1 hp
      exact .complement (ih hinner) hverifier

end Plan

namespace Operator

variable {context : Context} {capability : Capability} {info : MatchLayout} {e : Expr} {n m : Nat}
  {o : Operator}

/-- An operator for an indexed store compiles the whole condition first, and drops it. -/
theorem compile_indexed {h : Holder}
    (hcompile : compile context info e (.indexed h capability) n = .ok (o, m)) :
    ∃ c cl p k, Compile.condition context e info.layout n = .ok (c, k) ∧
      classify context capability info e = .ok cl ∧
      Plan.build context capability info cl true k = .ok (p, m) ∧
      o = ⟨.plan p, info.storeSlot⟩ := by
  obtain ⟨c, k, hc, hcompile⟩ := bind_eq_ok.1 hcompile
  obtain ⟨cl, k', hcl, hcompile⟩ := bind_eq_ok.1 hcompile
  obtain ⟨p, k'', hp, hcompile⟩ := bind_eq_ok.1 hcompile
  obtain ⟨rfl, rfl⟩ := pure_eq_ok.1 hcompile
  obtain ⟨hcl, hk⟩ := lift_eq_ok.1 hcl
  exact ⟨c, cl, p, k, mapError_eq_ok.1 hc, hcl, hk ▸ hp, rfl⟩

/-- Other containers are scanned by the whole condition. -/
theorem compile_unindexed {container : Container} {kind : ContainerKind}
    (hcompile : compile context info e container n = .ok (o, m))
    (hkind : container.kind? = some kind) (hscan : kind ≠ .indexed) :
    ∃ c, Compile.condition context e info.layout n = .ok (c, m) ∧
      o = ⟨.scan kind c, info.storeSlot⟩ := by
  cases container with
  | indexed h capability => exact absurd (Option.some.inj hkind).symm hscan
  | other name => cases hkind
  | _ =>
      cases hkind
      obtain ⟨c, k, hc, hcompile⟩ := bind_eq_ok.1 hcompile
      obtain ⟨rfl, rfl⟩ := pure_eq_ok.1 hcompile
      exact ⟨c, mapError_eq_ok.1 hc, rfl⟩

end Operator

end EventQuery
