/-
The rule of the library: the comment of a function is a summary and a list of its
parameters, in the order of the declaration.
-/
import DocLint.Rule.Description

namespace DocLint

/-- The description of the rule, with code that it accepts and code that it objects to. -/
def structuredFunctionDoc : RuleDescription where
  identifier := "structured_function_doc".toList
  name := "Structured Function Doc".toList
  purpose := ("A function doc should be structured: a short summary followed by "
    ++ "a parameters section listing every parameter in declaration order.").toList
  nonTriggering := [
    .ofLines [
      "/// Creates a greeting.",
      "///",
      "/// - Parameters:",
      "///   - name: The person being greeted.",
      "///   - greeting: The greeting word.",
      "///   - punctuation: Trailing punctuation.",
      "func greet(name: String, greeting: String, punctuation: String) \x7b\x7d"],
    .ofLines [
      "/// Moves a point.",
      "///",
      "/// - Parameter point: The point to move.",
      "/// - Parameter dx: Horizontal distance.",
      "/// - Parameter dy: Vertical distance.",
      "func move(_ point: Point, by dx: Int, _ dy: Int) \x7b\x7d"],
    .ofLines [
      "/// Clamps a value.",
      "///",
      "/// - Parameter value: The value to clamp.",
      "/// - Parameter lower: Lower bound.",
      "/// - Parameter upper: Upper bound.",
      "/// - Returns: The clamped value.",
      "func clamp(value: Int, lower: Int, upper: Int) -> Int \x7b value \x7d"],
    .ofLines [
      "/**",
      " Creates a personalized greeting for a recipient.",
      "",
      " - Parameters:",
      "   - recipient: The person being greeted.",
      "   - greeting: The greeting word.",
      "   - punctuation: Trailing punctuation.",
      "",
      " - Returns: A new string saying hello to `recipient`.",
      " */",
      "func greeting(for recipient: String, greeting: String, punctuation: String) -> String \x7b",
      "    greeting + recipient + punctuation",
      "\x7d"],
    .ofLines [
      "/// Adds two numbers.",
      "func add(_ a: Int, _ b: Int) -> Int \x7b a + b \x7d"],
    .ofLines [
      "func undocumented(a: Int, b: Int, c: Int) \x7b\x7d"],
    .ofLines [
      "//////////////////////////////////////",
      "//",
      "// Copyright header.",
      "//",
      "//////////////////////////////////////",
      "func configure(host: String, port: Int, secure: Bool) \x7b\x7d"],
    .ofLines [
      "/// Creates a client.",
      "///",
      "/// - Parameter host: Server name.",
      "/// - Parameter port: Server port.",
      "/// - Parameter secure: Use TLS.",
      "@available(*, deprecated,",
      "           message: \"Use connect(to:)\")",
      "init(host: String, port: Int, secure: Bool) \x7b\x7d"]]
  triggering := [
    .ofLines [
      "/// Creates a greeting.",
      "///",
      "/// - Parameter name: The person being greeted.",
      "↓/// - Parameter punctuation: Trailing punctuation.",
      "/// - Parameter greeting: The greeting word.",
      "func greet(name: String, greeting: String, punctuation: String) \x7b\x7d"],
    .ofLines [
      "/// Creates a greeting.",
      "///",
      "/// - Parameters:",
      "///   - name: The person being greeted.",
      "↓///   - salutation: The greeting word.",
      "///   - punctuation: Trailing punctuation.",
      "func greet(name: String, greeting: String, punctuation: String) \x7b\x7d"],
    .ofLines [
      "↓/// Creates a greeting",
      "/// for somebody.",
      "///",
      "/// - Parameter name: The person being greeted.",
      "/// - Parameter greeting: The greeting word.",
      "/// - Parameter punctuation: Trailing punctuation.",
      "func greet(name: String, greeting: String, punctuation: String) \x7b\x7d"],
    .ofLines [
      "↓/// Creates a greeting.",
      "///",
      "/// - Parameter name: The person being greeted.",
      "/// - Parameter greeting: The greeting word.",
      "func greet(name: String, greeting: String, punctuation: String) \x7b\x7d"],
    .ofLines [
      "↓/// Creates a range.",
      "init(lower: Int, upper: Int, step: Int) \x7b\x7d"],
    .ofLines [
      "↓/// Creates a client.",
      "@available(*, deprecated,",
      "           message: \"Use connect(to:)\")",
      "init(host: String, port: Int, secure: Bool) \x7b\x7d"]]

end DocLint
