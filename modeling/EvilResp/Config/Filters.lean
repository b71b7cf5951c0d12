import EvilResp.Externals
import EvilResp.Config.Options

/-!
# Command filters

Inclusion and exclusion filters name a command, a regular expression or a command
attribute.  The message of a rejected expression is the compiler's own and is
repeated unquoted.

Main results:

- Theorem {lit}`FilterSpec.compile_error`: compilation fails only with the message
  of the regular expression compiler.
- Theorem {lit}`compileFilters_error`: a rejected list of filters reports its first
  rejected expression.
-/

namespace EvilResp

open Library

/-- What a filter compares command names with. -/
inductive FilterSpec where
  | literal (value : String)
  | regex (source : String) (isMatch : String → Bool)
  | named (name : String)

/-- The attributes of a command. -/
def commandAttributes (command : String) : List String :=
  let command := toAsciiUppercase command
  let access :=
    if command ∈ ["GET", "MGET", "EXISTS", "TTL", "PTTL", "HGET", "HGETALL", "HMGET", "HEXISTS",
        "LRANGE", "LLEN", "SCARD", "SDIFF", "SINTER", "SISMEMBER", "SMEMBERS", "SUNION", "ZCARD",
        "ZRANGE"] then ["read"]
    else if command ∈ ["SET", "MSET", "DEL", "EXPIRE", "PEXPIRE", "HSET", "HMSET", "HDEL", "LPUSH",
        "RPUSH", "LPOP", "RPOP", "SADD", "SREM", "ZADD", "ZREM"] then ["write"]
    else []
  let value :=
    if command ∈ ["GET", "MGET", "SET", "MSET"] then ["string"]
    else if command ∈ ["HGET", "HGETALL", "HMGET", "HEXISTS", "HSET", "HMSET", "HDEL"] then ["hash"]
    else if command ∈ ["LRANGE", "LLEN", "LPUSH", "RPUSH", "LPOP", "RPOP"] then ["list"]
    else if command ∈ ["SCARD", "SDIFF", "SINTER", "SISMEMBER", "SMEMBERS", "SUNION", "SADD",
        "SREM"] then ["set"]
    else if command ∈ ["ZCARD", "ZRANGE", "ZADD", "ZREM"] then ["zset"]
    else []
  access ++ value

/-- The characters that make a filter a regular expression. -/
def looksLikeRegex (value : String) : Bool :=
  value.toList.any fun c =>
    c ∈ ['^', '$', '.', '*', '+', '?', '(', ')', '[', ']', '\x7b', '\x7d', '|']

namespace FilterSpec

/-- A filter for one name. -/
def ofLiteral (value : String) : FilterSpec :=
  .literal (toAsciiUppercase value)

/-- The error for a pattern that does not compile. -/
def invalidRegex (lib : Externals) (value error : String) : AppError :=
  invalid ("invalid regex " ++ lib.debug value ++ ": " ++ error)

/-- Read a filter: a name after {lit}`@`, a literal word, or a pattern. -/
def compile (lib : Externals) (value : String) : AppResult FilterSpec :=
  match value.toList with
  | '@' :: name => .ok (.named (toAsciiLowercase (String.ofList name)))
  | _ =>
      if looksLikeRegex value then
        match lib.buildRegex value with
        | .ok isMatch => .ok (.regex value isMatch)
        | .error error => .error (invalidRegex lib value error)
      else .ok (ofLiteral value)

/-- The filter applies to a command. -/
def matchesCommand (filter : FilterSpec) (command : String) : Bool :=
  match filter with
  | .literal value => eqIgnoreAsciiCase command value
  | .regex _ isMatch => isMatch command
  | .named name => name ∈ commandAttributes command

/-- A filter as the status shows it. -/
def display : FilterSpec → String
  | .literal value => value
  | .regex source _ => source
  | .named name => "@" ++ name

/-- A filter whose expression the compiler refuses, with the compiler's message. -/
def Refused (lib : Externals) (value error : String) : Prop :=
  value.toList.head? ≠ some '@' ∧ looksLikeRegex value = true ∧ lib.buildRegex value = .error error

/-- A filter is refused exactly if its pattern is. -/
theorem compile_error {lib : Externals} {value : String} {error : AppError} :
    compile lib value = .error error ↔
      ∃ message, Refused lib value message ∧ error = invalidRegex lib value message := by
  unfold compile Refused
  split <;> rename_i hchars
  · simp [hchars]
  · have hhead : value.toList.head? ≠ some '@' := by
      intro h
      cases hlist : value.toList with
      | nil => simp [hlist] at h
      | cons c rest =>
          rw [hlist, List.head?_cons, Option.some.injEq] at h
          exact hchars rest (by rw [hlist, h])
    by_cases hregex : looksLikeRegex value = true
    · rw [if_pos hregex]
      cases hbuild : lib.buildRegex value with
      | ok isMatch => simp
      | error message => simp [hhead, hregex, eq_comm]
    · simp [hregex]

end FilterSpec

/-- Read a list of filters, up to the first that is refused. -/
def compileFilters (lib : Externals) (values : List String) : AppResult (List FilterSpec) :=
  values.mapM (FilterSpec.compile lib)

/-- The first filter of a list that the compiler refuses. -/
def FirstRefused (lib : Externals) (values : List String) (value error : String) : Prop :=
  ∃ before after, values = before ++ value :: after ∧
    (∀ v ∈ before, ¬ ∃ e, FilterSpec.Refused lib v e) ∧ FilterSpec.Refused lib value error

/-- The filters are read one after the other. -/
theorem compileFilters_cons (lib : Externals) (value : String) (values : List String) :
    compileFilters lib (value :: values) = (FilterSpec.compile lib value >>= fun filter =>
      compileFilters lib values >>= fun filters => .ok (filter :: filters)) := by
  rw [compileFilters, List.mapM_cons]
  rfl

/-- A rejected list of filters reports its first rejected expression. -/
theorem compileFilters_error {lib : Externals} {values : List String} {error : AppError} :
    compileFilters lib values = .error error ↔
      ∃ value message, FirstRefused lib values value message ∧
        error = FilterSpec.invalidRegex lib value message := by
  induction values with
  | nil => simp [compileFilters, FirstRefused, pure, Except.pure]
  | cons v values ih =>
      rw [compileFilters_cons]
      constructor
      · intro h
        rcases bind_eq_error_iff.mp h with hv | ⟨filter, hv, hrest⟩
        · obtain ⟨message, hrefused, rfl⟩ := FilterSpec.compile_error.mp hv
          exact ⟨v, message, ⟨[], values, rfl, by simp, hrefused⟩, rfl⟩
        · rcases bind_eq_error_iff.mp hrest with hvalues | ⟨filters, -, hok⟩
          · obtain ⟨value, message, ⟨before, after, rfl, hbefore, hrefused⟩, rfl⟩ := ih.mp hvalues
            refine ⟨value, message, ⟨v :: before, after, rfl, ?_, hrefused⟩, rfl⟩
            refine List.forall_mem_cons.mpr ⟨?_, hbefore⟩
            rintro ⟨e, he⟩
            have := FilterSpec.compile_error.mpr ⟨e, he, rfl⟩
            rw [hv] at this
            cases this
          · cases hok
      · rintro ⟨value, message, ⟨before, after, hsplit, hbefore, hrefused⟩, rfl⟩
        cases before with
        | nil =>
            obtain ⟨rfl, rfl⟩ := List.cons.inj hsplit
            rw [FilterSpec.compile_error.mpr ⟨message, hrefused, rfl⟩]
            rfl
        | cons b before =>
            obtain ⟨rfl, rfl⟩ := List.cons.inj hsplit
            obtain ⟨hb, hbefore⟩ := List.forall_mem_cons.mp hbefore
            cases hv : FilterSpec.compile lib v with
            | error e =>
                obtain ⟨e', he', -⟩ := FilterSpec.compile_error.mp hv
                exact absurd ⟨e', he'⟩ hb
            | ok filter =>
                rw [ok_bind, ih.mpr ⟨value, message, ⟨before, after, rfl, hbefore, hrefused⟩, rfl⟩]
                rfl

end EvilResp
