/-!
The page at the root of the service: what there is to ask for.
-/

namespace Telemetry

namespace Http

def pageLines : List String := [
  "<!DOCTYPE html>",
  "<html>",
  "<head>",
  "    <title>regstats Exporter</title>",
  "    <style>",
  "        body \x7b font-family: -apple-system, BlinkMacSystemFont, 'Segoe UI', Roboto, " ++
      "sans-serif; max-width: 800px; margin: 50px auto; padding: 20px; \x7d",
  "        h1 \x7b color: #2c3e50; \x7d",
  "        a \x7b color: #3498db; text-decoration: none; \x7d",
  "        .endpoints \x7b background: #f8f9fa; padding: 20px; border-radius: 8px; margin: " ++
      "20px 0; \x7d",
  "        .endpoint \x7b margin: 10px 0; \x7d",
  "        code \x7b background: #e9ecef; padding: 2px 6px; border-radius: 4px; \x7d",
  "    </style>",
  "</head>",
  "<body>",
  "    <h1>regstats Exporter</h1>",
  "    <p>Hardware register counters, gauges and flags in Prometheus format.</p>",
  "",
  "    <div class=\"endpoints\">",
  "        <h2>Endpoints</h2>",
  "        <div class=\"endpoint\"><a href=\"/metrics\">/metrics</a> - Prometheus metrics</div>",
  "        <div class=\"endpoint\"><a href=\"/health\">/health</a> - Health check</div>",
  "        <div class=\"endpoint\"><a href=\"/ready\">/ready</a> - Readiness check</div>",
  "        <div class=\"endpoint\"><a href=\"/status\">/status</a> - Status information " ++
      "(JSON)</div>",
  "        <div class=\"endpoint\"><a href=\"/stats\">/stats</a> - Text report",
  "            (<code>?non_zero=true&amp;types=counter,flag&amp;long=true</code>)</div>",
  "    </div>",
  "",
  "    <p>Every series carries <code>domain</code>, <code>zone</code> and <code>block</code> " ++
      "labels.</p>",
  "</body>",
  "</html>"]

def page : String := "\n".intercalate pageLines

end Http

end Telemetry
