import Rollup.Table.Row

/-
Groups of rows with one key, each with a running state for every call of the plan.

Groups stay in the order in which their keys first arrived, and a group keeps the key that
made it.
-/

namespace Rollup

structure Group where
  key : List Cell
  states : List State

namespace Plan

def start (p : Plan) : List State := p.measures.map (·.aggregate.start)

def takeValues : List Measure → List State → List Cell → Except StateFault (List State)
  | m :: ms, s :: ss, c :: cs =>
      match if m.call.ofPartials then m.aggregate.absorb s c else m.aggregate.update s c with
      | .error e => .error e
      | .ok t => (takeValues ms ss cs).map (t :: ·)
  | _, _, _ => .ok []

def takeStates : List Measure → List State → List State → Except StateFault (List State)
  | m :: ms, s :: ss, o :: os =>
      match m.aggregate.merge s o with
      | .error e => .error e
      | .ok t => (takeStates ms ss os).map (t :: ·)
  | _, _, _ => .ok []

end Plan

/-- Keys are equal when they have equal cells in every place. -/
def keysEqual : List Cell → List Cell → Bool
  | [], [] => true
  | a :: as, b :: bs => Cell.equal a b && keysEqual as bs
  | _, _ => false

/-- Changes the states of the group with the given key.  A key that is not there yet gets a
group of its own at the end, whose states begin as `fresh`. -/
def enter (fresh : List State) (key : List Cell)
    (change : List State → Except StateFault (List State)) :
    List Group → Except StateFault (List Group)
  | [] => (change fresh).map fun states => [⟨key, states⟩]
  | g :: rest =>
      if keysEqual g.key key then (change g.states).map fun states => ⟨g.key, states⟩ :: rest
      else (enter fresh key change rest).map (g :: ·)

/-- No key that is there moves or changes, and one that is not comes last. -/
theorem keys_enter {fresh : List State} {key : List Cell}
    {change : List State → Except StateFault (List State)} {groups result : List Group}
    (h : enter fresh key change groups = .ok result) :
    result.map (·.key) =
      groups.map (·.key) ++ if groups.any (keysEqual ·.key key) then [] else [key] := by
  induction groups generalizing result with
  | nil =>
    rw [enter] at h
    cases hc : change fresh with
    | error e => rw [hc] at h; exact nomatch h
    | ok states =>
      rw [hc] at h
      cases h
      rfl
  | cons g rest ih =>
    rw [enter] at h
    by_cases hk : keysEqual g.key key = true
    · rw [if_pos hk] at h
      cases hc : change g.states with
      | error e => rw [hc] at h; exact nomatch h
      | ok states =>
        rw [hc] at h
        cases h
        simp [hk]
    · rw [if_neg hk] at h
      cases hr : enter fresh key change rest with
      | error e => rw [hr] at h; exact nomatch h
      | ok tail =>
        rw [hr] at h
        cases h
        simp [ih hr, hk]

namespace Plan

def takeRows (p : Plan) : List Group → List Row → Except StateFault (List Group)
  | groups, [] => .ok groups
  | groups, r :: rest =>
      match enter p.start r.key (fun states => takeValues p.measures states r.values) groups with
      | .error e => .error e
      | .ok groups => takeRows p groups rest

def takeGroups (p : Plan) : List Group → List Group → Except StateFault (List Group)
  | groups, [] => .ok groups
  | groups, g :: rest =>
      match enter p.start g.key (fun states => takeStates p.measures states g.states) groups with
      | .error e => .error e
      | .ok groups => takeGroups p groups rest

end Plan

end Rollup
