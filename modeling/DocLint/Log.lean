/-
Log entries: what a run says about itself beside its report.

An entry names the part of the program that speaks.  Whether it is shown is decided by
its level, outside.
-/
import DocLint.Text.Basic

namespace DocLint

/-- How much an entry matters. -/
inductive LogLevel where
  | debug
  | info
  | warning
  deriving Repr, DecidableEq

namespace LogLevel

def name : LogLevel → Text
  | .debug => "DEBUG".toList
  | .info => "INFO".toList
  | .warning => "WARNING".toList

/-- The place of a level among the others. -/
def rank : LogLevel → Nat
  | .debug => 0
  | .info => 1
  | .warning => 2

end LogLevel

/-- The part of the program that speaks. -/
inductive LogSource where
  | linter
  | config
  | matcher
  | swift
  | rule (identifier : Text)
  deriving Repr, DecidableEq

def LogSource.name : LogSource → Text
  | .linter => "structdoc.linter".toList
  | .config => "structdoc.config".toList
  | .matcher => "structdoc.matcher".toList
  | .swift => "structdoc.swift".toList
  | .rule identifier => "structdoc.rules.".toList ++ identifier

structure LogEntry where
  level : LogLevel
  source : LogSource
  message : Text
  deriving Repr, DecidableEq

/-- The entry as a line. -/
def LogEntry.text (e : LogEntry) : Text :=
  e.level.name ++ [' '] ++ e.source.name ++ ": ".toList ++ e.message

end DocLint
