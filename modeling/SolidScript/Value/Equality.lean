import SolidScript.Value

namespace SolidScript

namespace Value

-- Numbers, strings and failures are never identical.
def identical : Value → Value → Bool
  | .bool a, .bool b => a == b
  | .null, .null => true
  | .array r _, .array r' _ => r == r'
  | .hash r _, .hash r' _ => r == r'
  | .function r _ _ _, .function r' _ _ _ => r == r'
  | .builtin a, .builtin b => a == b
  | .named r _ _, .named r' _ _ => r == r'
  | .primitive r _ _ _, .primitive r' _ _ _ => r == r'
  | _, _ => false

mutual

-- An integer never equals a float. Functions have to be defined in the same scope.
def same : Value → Value → Bool
  | .int a, .int b => a == b
  | .float a, .float b => a == b
  | .string a, .string b => a == b
  | .bool a, .bool b => a == b
  | .null, .null => true
  | .array _ as, .array _ bs => sameEach as bs
  | .hash _ as, .hash _ bs => sameEntries as bs
  | .function _ ps b s, .function _ ps' b' s' => ps == ps' && Expr.sameBlock b b' && s == s'
  | .builtin a, .builtin b => a == b
  | .failure a, .failure b => a.message == b.message
  | .returned a, .returned b => same a b
  | .named _ n v, .named _ n' v' => n == n' && same v v'
  | .primitive _ k as b, .primitive _ k' as' b' => k == k' && sameEach as as' && sameBody b b'
  | _, _ => false
termination_by structural v _ => v

def sameEach : List Value → List Value → Bool
  | [], [] => true
  | a :: as, b :: bs => same a b && sameEach as bs
  | _, _ => false
termination_by structural vs _ => vs

def sameEntries : List (Key × HashPair Value) → List (Key × HashPair Value) → Bool
  | [], [] => true
  | (k, ⟨key, value⟩) :: as, (k', ⟨key', value'⟩) :: bs =>
    k == k' && same key key' && same value value' && sameEntries as bs
  | _, _ => false
termination_by structural es _ => es

def sameBody : Option (List Value) → Option (List Value) → Bool
  | none, none => true
  | some as, some bs => sameEach as bs
  | _, _ => false
termination_by structural b _ => b

end

instance : BEq Value := ⟨same⟩

end Value

end SolidScript
